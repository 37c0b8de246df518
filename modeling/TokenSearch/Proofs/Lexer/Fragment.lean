import TokenSearch.Proofs.Lexer.Extend

namespace TokenSearch.Lexer

/-! A piece of a text, from the first byte of a token to the last byte of another, read on its own.
It gives the same tokens, unless it starts where a header name could stand. -/

def IsHeaderName (token : Token) : Prop :=
  token.kind = .string ∧ token.text.toList.head? = some '<'

instance (token : Token) : Decidable (IsHeaderName token) :=
  inferInstanceAs (Decidable (token.kind = .string ∧ token.text.toList.head? = some '<'))

/-- A hash mark, an include directive and a bracket behind it that does not open a header name. -/
structure Directs (hash directive mark : Token) : Prop where
  marked : hash.text ∈ hashMarks
  named : directive.kind = .identifier
  known : directive.text ∈ includeDirectives
  punctuates : mark.kind = .punctuator
  bracket : mark.text.toList.head? = some '<'

/-- A run of tokens that says by itself which header names are in it: no directive in front of the
run makes one of its first two tokens a header name, and nothing in front of it keeps the third one
from being one. -/
structure SelfContained (tokens : List Token) : Prop where
  named : ∀ token ∈ tokens.take 2, ¬ IsHeaderName token
  unnamed : ∀ hash directive mark rest, tokens = hash :: directive :: mark :: rest →
    ¬ Directs hash directive mark

theorem kind_of_bracket {cs : List Char} {kind : LexemeKind} {n : Nat}
    (found : lexeme cs = some (kind, n)) (head : cs.head? = some '<') : kind = .punctuator := by
  obtain ⟨rest, rfl⟩ := List.head?_eq_some_iff.mp head
  have closed (quote : Char) (outside : isWordChar quote = false) (other : '<' ≠ quote) :
      opening quote ('<' :: rest) = none := by
    rw [Option.eq_none_iff_forall_ne_some]
    intro k opened
    exact other (quote_of_opening outside (by decide) opened).1.symm
  cases lexeme_opens found with
  | space counted => simp [spaceLength, spaceRun, isSpace] at counted
  | lineComment _ counted => simp [lineCommentLength] at counted
  | blockComment _ _ counted => simp [blockCommentLength] at counted
  | string _ _ _ counted => simp [stringLength, closed '"' (by decide) (by decide)] at counted
  | char _ _ _ _ counted => simp [charLength, closed '\'' (by decide) (by decide)] at counted
  | number _ _ _ _ _ counted => simp [numberLength, isDigit] at counted
  | word _ _ _ _ _ _ counted => simp [wordLength, isLetter] at counted
  | punctuator => rfl

theorem kind_of_nextLexeme {line : Int} {seen : List Token} {cs : List Char} {kind : LexemeKind}
    {n : Nat} (found : nextLexeme line seen cs = some (kind, n)) (bracket : cs.head? = some '<')
    (closed : (headerLength cs).isSome = true) :
    kind = if headerExpected line seen then .header else .punctuator := by
  obtain ⟨k, header⟩ := Option.isSome_iff_exists.mp closed
  cases expected : headerExpected line seen with
  | true =>
      simp only [nextLexeme, bracket, expected, header, decide_true, Bool.and_self, if_true,
        Option.some.injEq, Prod.mk.injEq] at found
      exact found.1.symm
  | false =>
      simp only [nextLexeme, expected, Bool.and_false, Bool.false_eq_true, if_false] at found
      exact kind_of_bracket found bracket

/-- Two tokens that let a header name be expected in a context do so at the start of a text. -/
theorem headerExpected_pair {base : Position} {context : List Token} {line : Int}
    {directive hash : Token}
    (expected : headerExpected (base.line + line - 1)
      ([directive, hash].map (Token.within base) ++ context) = true) :
    headerExpected line [directive, hash] = true := by
  have lines (a b : Int) : base.line + a - 1 = base.line + b - 1 ↔ a = b := by omega
  simp only [headerExpected, List.map_cons, List.map_nil, List.nil_append, List.cons_append,
    Token.within, Position.line_within, lines, Bool.and_eq_true] at expected ⊢
  exact ⟨expected.1, trivial⟩

theorem nextLexeme_take {line : Int} {seen : List Token} {cs : List Char} {kind : LexemeKind}
    {n m : Nat} (found : nextLexeme line seen cs = some (kind, n + 1)) (enough : n + 1 ≤ m) :
    nextLexeme line seen (cs.take m) = some (kind, n + 1) := by
  have plain (found : lexeme cs = some (kind, n + 1)) : lexeme (cs.take m) = some (kind, n + 1) := by
    cases skipped : kind.isSkipped with
    | true => exact lexeme_take_of_skipped found skipped enough
    | false => exact lexeme_take_of_kept found skipped enough
  have head : (cs.take m).head? = cs.head? := by
    rw [List.head?_take, if_neg (by omega)]
  unfold nextLexeme at found ⊢
  rw [head]
  split at found
  · rename_i expected
    rw [if_pos expected]
    cases header : headerLength cs with
    | none =>
        rw [header] at found
        rw [headerLength_take_eq_none header m]
        exact plain found
    | some k =>
        rw [header, Option.some.injEq, Prod.mk.injEq] at found
        obtain ⟨rfl, rfl⟩ := found
        rw [headerLength_take header enough]
  · rename_i unexpected
    rw [if_neg unexpected]
    exact plain found

namespace Stand

variable {base : Position} {context : List Token} {tail : List Char} {s t : Stand}
  {tokens : List Token} {kind : LexemeKind} {n : Nat}

theorem placed_in_run (later : ((s.within base context tail).past kind (n + 1)).Leads t)
    (gathered : t.seen = tokens.reverse ++ context) (kept : kind.isSkipped = false) :
    ∃ token more, tokens = (s.seen.map (Token.within base)).reverse ++ token :: more ∧
      token.text = String.ofList ((s.rest ++ tail).take (n + 1)) ∧
      classify kind token.text = some token.kind := by
  obtain ⟨token, pushed, _, _, text, classified⟩ :=
    (s.within base context tail).seen_past (n + 1) kept
  obtain ⟨more, whole⟩ := later.seen_suffix
  rw [pushed, gathered] at whole
  have split : more ++ token :: s.seen.map (Token.within base) ++ context =
      tokens.reverse ++ context := by simpa [within] using whole
  have same := congrArg List.reverse (List.append_cancel_right split)
  rw [List.reverse_reverse] at same
  exact ⟨token, more.reverse, by simpa using same.symm, text, classified⟩

/-- Up to its third token, a run may be read otherwise in its context: the context can announce a
header name, or keep one from being announced. A run that is self-contained is read alike. -/
theorem next_alone (found : (s.within base context tail).next = some (kind, n + 1))
    (later : ((s.within base context tail).past kind (n + 1)).Leads t)
    (gathered : t.seen = tokens.reverse ++ context) (contained : SelfContained tokens) :
    nextLexeme s.place.line s.seen (s.rest ++ tail) = some (kind, n + 1) := by
  rw [← found]
  refine nextLexeme_eq (fun bracket closed => ?_)
  have isKind := kind_of_nextLexeme found bracket closed
  have kept : kind.isSkipped = false := by
    rw [isKind]
    split <;> rfl
  obtain ⟨token, more, split, text, classified⟩ := placed_in_run later gathered kept
  have opens : token.text.toList.head? = some '<' := by
    rw [text, String.toList_ofList, List.head?_take, if_neg (by omega), bracket]
  change headerExpected s.place.line s.seen =
    headerExpected (base.within s.place).line (s.seen.map (Token.within base) ++ context)
  have isKind : kind = if headerExpected (base.within s.place).line
    (s.seen.map (Token.within base) ++ context) then .header else .punctuator := isKind
  have early (short : s.seen.length < 2) : headerExpected (base.within s.place).line
      (s.seen.map (Token.within base) ++ context) = false := by
    by_contra expected
    rw [Bool.not_eq_false] at expected
    rw [if_pos expected] at isKind
    subst isKind
    refine contained.named token ?_ ⟨(Option.some.inj classified).symm, opens⟩
    obtain ⟨k, enough⟩ : ∃ k, 2 - s.seen.length = k + 1 := ⟨1 - s.seen.length, by omega⟩
    simp [split, List.take_append, enough]
  -- only with three tokens of the run behind does the question stay inside the run
  rcases seen : s.seen with _ | ⟨directive, _ | ⟨hash, _ | ⟨before, earlier⟩⟩⟩
  · have none_ := early (by simp [seen])
    rw [seen] at none_
    exact none_.symm
  · have none_ := early (by simp [seen])
    rw [seen] at none_
    exact none_.symm
  · rw [seen] at isKind split
    cases expected : headerExpected (base.within s.place).line
        ([directive, hash].map (Token.within base) ++ context) with
    | true => exact headerExpected_pair expected
    | false =>
        by_contra announced
        rw [Bool.not_eq_false, headerExpected] at announced
        simp only [Bool.and_eq_true, decide_eq_true_eq] at announced
        obtain ⟨⟨⟨⟨⟨named, known⟩, marked⟩, _⟩, _⟩, _⟩ := announced
        rw [expected] at isKind
        subst isKind
        exact contained.unnamed (hash.within base) (directive.within base) token more split
          ⟨marked, named, known, (Option.some.inj classified).symm, opens⟩
  · exact (headerExpected_within base context s.place.line (by simp)).symm

/-- The scan of a piece of a text, taken out of the scan of the text. -/
theorem Leads.alone {start : Stand} (leads : start.Leads t)
    (framed : start = s.within base context tail) (counted : 1 ≤ s.place.line)
    (ended : t.rest = tail) (gathered : t.seen = tokens.reverse ++ context)
    (contained : SelfContained tokens) :
    ∃ last, s.Leads last ∧ last.rest = [] ∧ t = last.within base context tail := by
  induction leads generalizing s with
  | refl start =>
      subst framed
      exact ⟨s, .refl s, List.append_left_eq_self.mp ended, rfl⟩
  | @step start t kind n found later ih =>
      subst framed
      have bound := nextLexeme_le found
      have inside : n + 1 ≤ s.rest.length := by
        obtain ⟨piece, whole, _⟩ := later.passed
        have size := congrArg List.length whole
        simp only [rest_past, within, ended, List.length_drop, List.length_append] at size bound
        omega
      have next : s.next = some (kind, n + 1) := by
        have cut := nextLexeme_take (next_alone found later gathered contained) inside
        rwa [List.take_left] at cut
      obtain ⟨last, reached, done, same⟩ := ih (past_within base context tail counted inside)
        (counted.trans (s.place.line_le_advance _)) ended gathered
      exact ⟨last, .step next reached, done, same⟩

theorem within_atStart (base : Position) (context : List Token) (tail piece : List Char) :
    (atStart piece).within base context tail = ⟨base, context, piece ++ tail⟩ := by
  simp [within, atStart]

end Stand

theorem eq_reverse_take {seen tokens : List Token} {size : Nat} (inside : seen <:+ tokens.reverse)
    (length : seen.length = size) : seen = (tokens.take size).reverse := by
  have front : seen.reverse <+: tokens := by
    rw [← List.reverse_suffix, List.reverse_reverse]
    exact inside
  rw [← length, ← List.length_reverse, ← List.prefix_iff_eq_take.mp front, List.reverse_reverse]

/-- A piece of a text from one token to another gives the tokens of that run when it is scanned
alone. -/
theorem scan_fragment {cs : List Char} {tokens : List Token}
    (complete : scan .start [] cs = ⟨tokens, none⟩) {i j : Nat} (forward : i ≤ j)
    {first last : Token} (start : tokens[i]? = some first) (stop : tokens[j]? = some last)
    (contained : SelfContained ((tokens.drop i).take (j + 1 - i))) :
    ∃ before piece after others, cs = before ++ (piece ++ after) ∧
      first.start = Position.start.advance before ∧
      last.stop = Position.start.advance (before ++ piece) ∧
      scan .start [] piece = ⟨others, none⟩ ∧
      others.map Token.identity = ((tokens.drop i).take (j + 1 - i)).map Token.identity := by
  -- the scan of the whole text, cut at the stands before the first token and behind the last
  obtain ⟨place, reached⟩ := Stand.leads_to_end (s := .atStart cs) complete
  obtain ⟨u, _, _, atFirst, next, onward, size, _, here, _⟩ :=
    reached.standing (i := i) (Nat.zero_le i) (by simpa using start)
  obtain ⟨v, kind, n, atLast, found, ending, size', pushed, _, there⟩ :=
    (Stand.Leads.step next onward).standing (i := j) (by omega) (by simpa using stop)
  have across : u.Leads (v.past kind (n + 1)) := atLast.trans (.step found (.refl _))
  obtain ⟨before, whole, arrived⟩ := atFirst.passed
  obtain ⟨piece, split, left⟩ := across.passed
  have context : u.seen = (tokens.take i).reverse :=
    eq_reverse_take (Stand.Leads.step next onward).seen_suffix size
  have gathered : (v.past kind (n + 1)).seen =
      ((tokens.drop i).take (j + 1 - i)).reverse ++ u.seen := by
    have all := eq_reverse_take ending.seen_suffix
      (show (v.past kind (n + 1)).seen.length = j + 1 by rw [pushed, List.length_cons, size'])
    have parts : tokens.take (j + 1) = tokens.take i ++ (tokens.drop i).take (j + 1 - i) := by
      rw [← List.take_add]
      congr 1
      omega
    rw [all, parts, List.reverse_append, context]
  have framed : u = (Stand.atStart piece).within u.place u.seen (v.past kind (n + 1)).rest := by
    rw [Stand.within_atStart, ← split]
  obtain ⟨final, alone, done, same⟩ := across.alone framed (Int.le_refl 1) rfl gathered contained
  refine ⟨before, piece, (v.past kind (n + 1)).rest, final.seen.reverse, ?_, ?_, ?_, ?_, ?_⟩
  · rw [← split]
    exact whole
  · rw [← here, arrived]
    rfl
  · rw [← there, left, arrived, Position.advance_append]
    rfl
  · have ended := alone.run_eq
    obtain ⟨place, seen, rest⟩ := final
    obtain rfl : rest = [] := done
    exact ended.trans (by simp [Stand.run, scan])
  · have seen := congrArg Stand.seen same
    rw [gathered] at seen
    have mapped := List.append_cancel_right seen
    rw [List.reverse_eq_iff] at mapped
    rw [mapped, List.map_reverse, List.map_reverse, List.map_map]
    rfl

end TokenSearch.Lexer
