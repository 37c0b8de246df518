import TokenSearch.Proofs.Lexer.Trail
import TokenSearch.Proofs.Lexer.Munch

namespace TokenSearch.Lexer

/-! The part of a text from one of its tokens to another: the characters that it covers and the
lines that it lies on. -/

theorem NumberTail.solid {rest : List Char} (tail : NumberTail rest) :
    ∀ c ∈ rest, isSpace c = false := by
  induction tail with
  | nil => simp
  | @plain c rest counted _ ih =>
      have first : isSpace c = false := by
        rcases counted with inside | point
        · exact isSpace_of_wordChar inside
        · rw [point]
          decide
      exact List.forall_mem_cons.mpr ⟨first, ih⟩
  | @signed c sign rest marked isSign _ ih =>
      have plain : ∀ d ∈ ['+', '-'], isSpace d = false := by simp [isSpace]
      have later : ∀ d ∈ sign :: rest, isSpace d = false :=
        List.forall_mem_cons.mpr ⟨plain sign isSign, ih⟩
      exact List.forall_mem_cons.mpr ⟨isSpace_of_wordChar (isWordChar_of_mark marked), later⟩

theorem last_of_solid {text : List Char} (filled : text ≠ [])
    (solid : ∀ c ∈ text, isSpace c = false) : ∃ c, text.getLast? = some c ∧ isSpace c = false :=
  ⟨text.getLast filled, List.getLast?_eq_some_getLast filled, solid _ (List.getLast_mem filled)⟩

theorem last_of_quoted {quote : Char} {inner text : List Char} (quoted : IsQuoted quote inner text) :
    text.getLast? = some quote := by
  obtain ⟨mark, _, _, rfl⟩ := quoted
  simp [List.getLast?_cons]

theorem last_of_language {family : LexemeKind} {text : List Char}
    (inside : family.language text) : ∃ c, text.getLast? = some c ∧ isSpace c = false := by
  cases family with
  | space | lineComment | blockComment => exact inside.elim
  | string =>
      obtain ⟨inner, quoted⟩ := inside
      exact ⟨'"', last_of_quoted quoted, by decide⟩
  | char =>
      obtain ⟨inner, _, quoted⟩ := inside
      exact ⟨'\'', last_of_quoted quoted, by decide⟩
  | header =>
      obtain ⟨name, _, _, _, rfl⟩ := inside
      exact ⟨'>', by simp [List.getLast?_cons], by decide⟩
  | number =>
      obtain ⟨d, rest, digit, tail, form⟩ := inside
      have solid : ∀ c ∈ d :: rest, isSpace c = false :=
        List.forall_mem_cons.mpr ⟨isSpace_of_wordChar (isWordChar_of_digit digit), tail.solid⟩
      rcases form with rfl | rfl
      · exact last_of_solid (List.cons_ne_nil _ _) solid
      · have pointed : ∀ c ∈ '.' :: d :: rest, isSpace c = false :=
          List.forall_mem_cons.mpr ⟨by decide, solid⟩
        exact last_of_solid (List.cons_ne_nil _ _) pointed
  | word =>
      obtain ⟨c, rest, letter, each, rfl⟩ := inside
      apply last_of_solid (List.cons_ne_nil _ _)
      have counted : isWordChar c = true := by simp [isWordChar, letter]
      have others : ∀ d ∈ rest, isSpace d = false :=
        fun d member => isSpace_of_wordChar (each d member)
      exact List.forall_mem_cons.mpr ⟨isSpace_of_wordChar counted, others⟩
  | punctuator =>
      have plain : ∀ mark ∈ punctuators, mark ≠ [] ∧ mark.any isSpace = false := by decide
      obtain ⟨filled, solid⟩ := plain text inside
      rw [List.any_eq_false] at solid
      exact last_of_solid filled (fun c member => by simpa using solid c member)

/-- The part of a text from its token at `i` to its token at `j`. -/
theorem span_of_run {cs : List Char} {tokens : List Token}
    (complete : scan .start [] cs = ⟨tokens, none⟩) {i j : Nat} (forward : i ≤ j)
    {first last : Token} (start : tokens[i]? = some first) (stop : tokens[j]? = some last) :
    ∃ before piece after, cs = before ++ (piece ++ after) ∧
      first.start = Position.start.advance before ∧
      last.stop = Position.start.advance (before ++ piece) ∧
      ∃ c, piece.getLast? = some c ∧ isSpace c = false := by
  obtain ⟨place, reached⟩ := Stand.leads_to_end (s := .atStart cs) complete
  obtain ⟨u, _, _, atFirst, next, onward, size, _, here, _⟩ :=
    reached.standing (i := i) (Nat.zero_le i) (by simpa using start)
  obtain ⟨v, kind, n, atLast, found, _, _, pushed, _, there⟩ :=
    (Stand.Leads.step next onward).standing (i := j) (by omega) (by simpa using stop)
  -- what is skipped gives no token, and this lexeme gives the last one
  have kept : kind.isSkipped = false := by
    cases skipped : kind.isSkipped with
    | false => rfl
    | true =>
        rw [Stand.past_skipped v (n + 1) skipped] at pushed
        exact (List.cons_ne_self last v.seen pushed.symm).elim
  obtain ⟨before, whole, arrived⟩ := atFirst.passed
  obtain ⟨front, split, _⟩ := atLast.passed
  obtain ⟨piece, across, left⟩ := (atLast.trans (.step found (.refl _))).passed
  refine ⟨before, piece, (v.past kind (n + 1)).rest, ?_, ?_, ?_, ?_⟩
  · rw [← across]
    exact whole
  · rw [← here, arrived]
    rfl
  · rw [← there, left, arrived, Position.advance_append]
    rfl
  · obtain ⟨c, last, solid⟩ := last_of_language (longest_nextLexeme found kept).inside
    refine ⟨c, ?_, solid⟩
    have parts : piece = front ++ v.rest.take (n + 1) := by
      rw [split, Stand.rest_past, ← List.take_append_drop (n + 1) v.rest, ← List.append_assoc,
        List.drop_left' (List.length_take_of_le (nextLexeme_le found))] at across
      exact (List.append_cancel_right across).symm
    rw [parts, List.getLast?_append, last]
    rfl

/-- Of some tokens in a row, the first one starts on the first line, and the last one ends on the
last line. -/
theorem lines_of_run {cs : List Char} {tokens : List Token}
    (complete : scan .start [] cs = ⟨tokens, none⟩) {i j k : Nat} (before : i ≤ k) (behind : k ≤ j)
    {first last token : Token} (start : tokens[i]? = some first) (stop : tokens[j]? = some last)
    (between : tokens[k]? = some token) :
    first.start.line ≤ token.start.line ∧ token.stop.line ≤ last.stop.line := by
  obtain ⟨place, reached⟩ := Stand.leads_to_end (s := .atStart cs) complete
  have ordered := Stand.lines_ordered reached
  have each := (Stand.lines_of_leads reached).2
  simp only [List.reverse_reverse, List.mem_reverse] at ordered each
  have step {m n : Nat} {a b : Token} (less : m < n) (left : tokens[m]? = some a)
      (right : tokens[n]? = some b) : a.stop.line ≤ b.start.line := by
    obtain ⟨inside, rfl⟩ := List.getElem?_eq_some_iff.mp left
    obtain ⟨inside', rfl⟩ := List.getElem?_eq_some_iff.mp right
    exact List.pairwise_iff_getElem.mp ordered m n inside inside' less
  have forward {n : Nat} {a : Token} (held : tokens[n]? = some a) : a.start.line ≤ a.stop.line :=
    (each a (List.mem_of_getElem? held)).2.1
  constructor
  · rcases Nat.eq_or_lt_of_le before with rfl | less
    · rw [start, Option.some.injEq] at between
      rw [between]
    · exact (forward start).trans (step less start between)
  · rcases Nat.eq_or_lt_of_le behind with rfl | less
    · rw [stop, Option.some.injEq] at between
      rw [between]
    · exact (step less between stop).trans (forward stop)

end TokenSearch.Lexer
