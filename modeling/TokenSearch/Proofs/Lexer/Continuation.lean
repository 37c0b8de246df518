import TokenSearch.Proofs.Lexer.Trail

namespace TokenSearch.Lexer

/-! Where a line comment ends. A backslash takes the character behind it, so backslashes in a row
take each other, two by two, and a line goes on behind a line feed that one of them is left for. -/

open Text

/-- How many backslashes end a text. -/
def marks (before : List Char) : Nat :=
  (before.reverse.takeWhile (· = '\\')).length

/-- How many backslashes stand right before a line end, which is a line feed behind `before`, or
that line feed and the carriage return before it. -/
def marksBefore (before : List Char) : Nat :=
  if before.getLast? = some '\r' then marks before.dropLast else marks before

theorem marks_concat (before : List Char) (c : Char) :
    marks (before ++ [c]) = if c = '\\' then marks before + 1 else 0 := by
  by_cases mark : c = '\\' <;> simp [marks, mark]

theorem marksBefore_concat (before : List Char) (c : Char) :
    marksBefore (before ++ [c]) = if c = '\r' then marks before else marks (before ++ [c]) := by
  by_cases carriage : c = '\r' <;> simp [marksBefore, carriage]

/-- Behind `before`, a backslash is left for every line feed in `body`, and none is left for one
that stands behind it. -/
structure Continued (before body behind : List Char) : Prop where
  inner : ∀ front more, body = front ++ '\n' :: more → Odd (marksBefore (before ++ front))
  last : behind.head? = some '\n' → Even (marksBefore (before ++ body))

theorem Continued.prepend {before : List Char} (piece : List Char) {body behind : List Char}
    (once : '\n' ∉ piece.dropLast)
    (first : ∀ front, piece = front ++ ['\n'] → Odd (marksBefore (before ++ front)))
    (later : Continued (before ++ piece) body behind) : Continued before (piece ++ body) behind := by
  constructor
  · intro front more split
    rcases List.append_eq_append_iff.mp split with ⟨others, rfl, inside⟩ | ⟨others, inside, tail⟩
    · rw [← List.append_assoc]
      exact later.inner others more inside
    · cases others with
      | nil =>
          rw [List.append_nil] at inside
          rw [← inside]
          simpa using later.inner [] more tail.symm
      | cons c others =>
          obtain ⟨rfl, _⟩ := List.cons.inj tail
          cases others with
          | nil => exact first front inside
          | cons d others => simp [inside] at once
  · intro feed
    rw [← List.append_assoc]
    exact later.last feed

/-- The body of a line comment behind `before`, which has been gone over, so that its backslashes
are paired up. -/
theorem continued_lineBody {before cs : List Char} (paired : Even (marks before))
    (settled : cs.head? = some '\n' → Even (marksBefore before)) :
    Continued before (cs.take (lineBody cs)) (cs.drop (lineBody cs)) := by
  -- a backslash that is met takes what is behind it, so it is left for a line end there
  have left : Odd (marks (before ++ ['\\'])) := by
    rw [marks_concat, if_pos rfl]
    exact paired.add_one
  fun_induction lineBody cs generalizing before with
  | case1 => exact ⟨by simp, by simp⟩
  | case2 rest ih =>
      apply Continued.prepend ['\\', '\r', '\n'] (by decide)
      · intro front split
        obtain rfl : ['\\', '\r'] = front := (List.append_left_inj ['\n']).mp split
        rw [List.append_cons, marksBefore_concat, if_pos rfl]
        exact left
      · apply ih <;> simp [marksBefore, marks]
  | case3 c rest notCarried ih =>
      apply Continued.prepend ['\\', c] (by simp)
      · intro front split
        have split : ['\\'] ++ [c] = front ++ ['\n'] := split
        obtain ⟨rfl, _⟩ := List.append_inj' split rfl
        rw [marksBefore_concat, if_neg (by decide)]
        exact left
      · have counted : marks (before ++ ['\\', c]) = if c = '\\' then marks before + 2 else 0 := by
          rw [List.append_cons, marks_concat, marks_concat, if_pos rfl]
        have even : Even (marks (before ++ ['\\', c])) := by
          rw [counted]
          split
          · exact paired.add even_two
          · exact Even.zero
        apply ih even
        · intro feed
          have other : c ≠ '\r' := by
            intro carriage
            obtain ⟨more, rfl⟩ := List.head?_eq_some_iff.mp feed
            exact notCarried more carriage rfl
          rw [List.append_cons, marksBefore_concat, if_neg other, ← List.append_cons]
          exact even
        · rw [marks_concat, if_pos rfl]
          exact even.add_one
  | case4 rest => exact ⟨by simp, by simpa using settled⟩
  | case5 c rest notCarried notTaken notEnd ih =>
      by_cases mark : c = '\\'
      · cases rest with
        | nil =>
            subst mark
            constructor
            · intro front more split
              have member : '\n' ∈ ['\\'].take (lineBody [] + 1) := by simp [split]
              simp [lineBody] at member
            · simp [lineBody]
        | cons next more => exact (notTaken next more mark rfl).elim
      · apply Continued.prepend [c] (by simp)
        · intro front split
          have split : [] ++ [c] = front ++ ['\n'] := split
          obtain ⟨_, same⟩ := List.append_inj' split rfl
          exact (notEnd (List.singleton_inj.mp same)).elim
        · have counted : marks (before ++ [c]) = 0 := by rw [marks_concat, if_neg mark]
          apply ih
          · rw [counted]
            exact Even.zero
          · intro feed
            rw [marksBefore_concat]
            split
            · exact paired
            · rw [counted]
              exact Even.zero
          · rw [marks_concat, if_pos rfl, counted]
            exact odd_one

theorem next_of_lineComment {stand : Stand} {rest : List Char}
    (opens : stand.rest = '/' :: '/' :: rest) :
    stand.next = some (.lineComment, lineBody rest + 2) := by
  simp [Stand.next, nextLexeme, opens, lexeme, spaceLength, spaceRun, isSpace, lineCommentLength]

theorem lineBody_stops (cs : List Char) :
    cs.drop (lineBody cs) = [] ∨ ∃ more, cs.drop (lineBody cs) = '\n' :: more := by
  fun_induction lineBody cs with
  | case1 => exact .inl rfl
  | case2 rest ih => exact ih
  | case3 c rest _ ih => exact ih
  | case4 rest => exact .inr ⟨rest, rfl⟩
  | case5 c rest _ _ _ ih => exact ih

theorem next_of_lineFeed {stand : Stand} {more : List Char} (feed : stand.rest = '\n' :: more) :
    stand.next = some (.space, spaceRun more + 1) := by
  simp [Stand.next, nextLexeme, feed, lexeme, spaceLength, spaceRun, isSpace]

/-- At the end of a line, a scan finds no more tokens before the next one. -/
theorem Stand.Leads.below_line {s t : Stand} (leads : s.Leads t)
    (stops : s.rest = [] ∨ ∃ more, s.rest = '\n' :: more) :
    ∀ token ∈ t.seen, token ∈ s.seen ∨ s.place.line < token.start.line := by
  intro token member
  cases leads with
  | refl => exact .inl member
  | @step _ _ kind n found later =>
      rcases stops with ended | ⟨more, feed⟩
      · exact (Stand.rest_ne_nil found ended).elim
      · rw [next_of_lineFeed feed] at found
        cases found
        have further := Stand.lines_behind later token member
        rw [Stand.past_skipped s _ rfl] at further
        refine further.imp_right (fun below => ?_)
        rw [line_advance, feed, List.take_succ_cons, List.count_cons_self] at below
        omega

/-- What a scan of a text does where it meets a line comment: it discards all up to the first line
feed that no backslash is left for, or up to the end. No token lies on a line that the comment goes
on to. -/
theorem line_comment_ends (cs : List Char) (stand : Stand) (rest : List Char)
    (leads : (Stand.atStart cs).Leads stand) (opens : stand.rest = '/' :: '/' :: rest) :
    ∃ body behind, rest = body ++ behind ∧
      stand.next = some (.lineComment, body.length + 2) ∧
      (∀ front more, body = front ++ '\n' :: more → Odd (marksBefore front)) ∧
      (behind = [] ∨ ∃ more, behind = '\n' :: more ∧ Even (marksBefore body)) ∧
      ∀ token ∈ (lex (Utf8.encode cs)).tokens, token.stop.line ≤ stand.place.line ∨
        stand.place.line + body.count '\n' < token.start.line := by
  have next := next_of_lineComment opens
  have stops := lineBody_stops rest
  have continued : Continued [] (rest.take (lineBody rest)) (rest.drop (lineBody rest)) :=
    continued_lineBody (by simp [marks]) (by simp [marksBefore, marks])
  refine ⟨rest.take (lineBody rest), rest.drop (lineBody rest),
    (List.take_append_drop _ _).symm, ?_, continued.inner, ?_, ?_⟩
  · rw [List.length_take_of_le (lineBody_le rest), next]
  · refine stops.imp_right (fun ⟨more, feed⟩ => ⟨more, feed, continued.last ?_⟩)
    rw [feed, List.head?_cons]
  · intro token member
    have behind : (stand.past .lineComment (lineBody rest + 2)).rest = rest.drop (lineBody rest) := by
      rw [Stand.rest_past, opens]
      rfl
    have seen : (stand.past .lineComment (lineBody rest + 2)).seen = stand.seen := by
      rw [Stand.past_skipped stand _ rfl]
    have line : (stand.past .lineComment (lineBody rest + 2)).place.line =
        stand.place.line + (rest.take (lineBody rest)).count '\n' := by
      rw [Stand.place_past, line_advance, opens]
      simp
    obtain ⟨last, reached, given⟩ := (stand.past .lineComment (lineBody rest + 2)).leads_to_last
    rw [leads.lex_eq.trans (Stand.run_past next), given, List.mem_reverse] at member
    rw [← behind] at stops
    rcases reached.below_line stops token member with before | below
    · rw [seen] at before
      exact .inl ((Stand.lines_of_leads leads).2 token before).2.2
    · rw [line] at below
      exact .inr below

/-- A line comment with two backslashes in front of its line feed. -/
def doubledText : List Char :=
  "// a\\\\\nb".toList

theorem doubledText_comment :
    ∃ body behind, " a\\\\\nb".toList = body ++ behind ∧
      (Stand.atStart doubledText).next = some (.lineComment, body.length + 2) ∧
      (∀ front more, body = front ++ '\n' :: more → Odd (marksBefore front)) ∧
      (behind = [] ∨ ∃ more, behind = '\n' :: more ∧ Even (marksBefore body)) ∧
      ∀ token ∈ (lex (Utf8.encode doubledText)).tokens, token.stop.line ≤ 1 ∨
        1 + (body.count '\n' : Int) < token.start.line :=
  line_comment_ends doubledText (.atStart doubledText) " a\\\\\nb".toList (.refl _) rfl

/-- A line feed right behind a backslash ends a comment, and there is a token on the line below. -/
theorem doubled_mark_ends_comment :
    (Stand.atStart doubledText).next = some (.lineComment, 6) ∧
      (doubledText.take 6).getLast? = some '\\' ∧ doubledText[6]? = some '\n' ∧
      (lex (Utf8.encode doubledText)).tokens = [⟨.identifier, "b", ⟨7, 2, 1⟩, ⟨8, 2, 2⟩⟩] := by
  rw [lex_encode]
  refine ⟨?_, ?_, ?_, ?_⟩ <;> cbv

end TokenSearch.Lexer
