import TokenSearch.Proofs.Lexer.Respacing

/-! The course of a scan, lexeme by lexeme. A scan stands at a place, behind some tokens and in
front of some text, and each lexeme takes it to the next such stand. -/

namespace TokenSearch

namespace Position

/-- A place inside a text that itself starts at `base`, counted from where `base` is counted. -/
def within (base place : Position) : Position where
  offset := base.offset + place.offset
  line := base.line + place.line - 1
  column := if place.line = 1 then base.column + place.column - 1 else place.column

@[simp]
theorem within_start (base : Position) : base.within start = base := by
  simp [within, start]

@[simp]
theorem line_within (base place : Position) :
    (base.within place).line = base.line + place.line - 1 := rfl

theorem within_step (base : Position) {place : Position} (counted : 1 ≤ place.line) (c : Char) :
    base.within (place.step c) = (base.within place).step c := by
  by_cases feed : c = '\n'
  · subst feed
    have later : place.line + 1 ≠ 1 := by omega
    simp only [within, step, if_true, later, if_false, Position.mk.injEq, and_true]
    omega
  · simp only [within, step, feed, if_false, Position.mk.injEq, true_and]
    refine ⟨by omega, ?_⟩
    split <;> omega

theorem line_le_step (place : Position) (c : Char) : place.line ≤ (place.step c).line := by
  unfold step
  split <;> simp only <;> omega

theorem line_le_advance (place : Position) (cs : List Char) :
    place.line ≤ (place.advance cs).line := by
  rw [Lexer.line_advance]
  omega

/-- Counting on from a place inside a text is counting on from that place in the text around it. -/
theorem within_advance (base : Position) {place : Position} (counted : 1 ≤ place.line)
    (cs : List Char) : base.within (place.advance cs) = (base.within place).advance cs := by
  induction cs generalizing place with
  | nil => rfl
  | cons c cs ih =>
      have later : 1 ≤ (place.step c).line := counted.trans (line_le_step place c)
      have first : place.advance (c :: cs) = (place.step c).advance cs := rfl
      rw [first, ih later, within_step base counted]
      rfl

end Position

def Token.within (base : Position) (token : Token) : Token :=
  { token with start := base.within token.start, stop := base.within token.stop }

namespace Lexer

theorem nextLexeme_le {line : Int} {seen : List Token} {cs : List Char} {kind : LexemeKind}
    {n : Nat} (found : nextLexeme line seen cs = some (kind, n)) : n ≤ cs.length := by
  cases skipped : kind.isSkipped with
  | true => exact (isGap_of_skipped (lexeme_of_nextLexeme found skipped) skipped).1
  | false => exact (nextLexeme_shape found skipped).1

theorem lexeme_pos {cs : List Char} {kind : LexemeKind} {n : Nat}
    (found : lexeme cs = some (kind, n)) : 0 < n := by
  cases lexeme_opens found with
  | space counted => exact (spaceLength_eq_some counted).2
  | lineComment _ counted =>
      obtain ⟨_, _, rfl⟩ := lineComment_eq counted
      exact Nat.succ_pos _
  | blockComment _ _ counted =>
      obtain ⟨_, _, _, _, rfl⟩ := blockComment_eq counted
      exact Nat.succ_pos _
  | string _ _ _ counted =>
      obtain ⟨k, m, _, closed, rfl⟩ := stringLength_eq_some.mp counted
      exact Nat.add_pos_right k (quotedBody_shape closed).1
  | char _ _ _ _ counted =>
      obtain ⟨k, m, _, closed, _, rfl⟩ := charLength_eq_some.mp counted
      exact Nat.add_pos_right k (quotedBody_shape closed).1
  | number _ _ _ _ _ counted =>
      obtain ⟨_, _, _, ⟨_, rfl⟩ | ⟨_, rfl⟩⟩ := numberLength_eq_some.mp counted <;>
        exact Nat.succ_pos _
  | word _ _ _ _ _ _ counted =>
      obtain ⟨_, _, _, _, rfl⟩ := wordLength_eq_some.mp counted
      exact Nat.succ_pos _
  | punctuator _ _ _ _ _ _ _ counted =>
      have filled : ∀ mark ∈ punctuators, 0 < mark.length := by decide
      obtain ⟨mark, _, _, all, _, _, rfl⟩ := punctuatorLength_eq_some.mp counted
      exact filled mark (by simp [all])

theorem nextLexeme_pos {line : Int} {seen : List Token} {cs : List Char} {kind : LexemeKind}
    {n : Nat} (found : nextLexeme line seen cs = some (kind, n)) : 0 < n := by
  rcases nextLexeme_cases found with plain | ⟨_, _, header⟩
  · exact lexeme_pos plain
  · obtain ⟨_, _, _, _, _, rfl⟩ := headerLength_eq_some.mp header
    exact Nat.succ_pos _

/-- Where a scan stands: its place, the tokens behind it, the last one first, and the text in front
of it. -/
structure Stand where
  place : Position
  seen : List Token
  rest : List Char

namespace Stand

variable {s t u : Stand} {kind : LexemeKind} {n : Nat}

def atStart (cs : List Char) : Stand := ⟨.start, [], cs⟩

def run (s : Stand) : Lexing := scan s.place s.seen s.rest

def next (s : Stand) : Option (LexemeKind × Nat) := nextLexeme s.place.line s.seen s.rest

/-- The stand behind a lexeme of `n` characters. -/
def past (s : Stand) (kind : LexemeKind) (n : Nat) : Stand :=
  let text := String.ofList (s.rest.take n)
  let after := s.place.advance (s.rest.take n)
  { place := after
    seen := match classify kind text with
      | none => s.seen
      | some token => ⟨token, text, s.place, after⟩ :: s.seen
    rest := s.rest.drop n }

@[simp]
theorem place_past (s : Stand) (kind : LexemeKind) (n : Nat) :
    (s.past kind n).place = s.place.advance (s.rest.take n) := rfl

@[simp]
theorem rest_past (s : Stand) (kind : LexemeKind) (n : Nat) :
    (s.past kind n).rest = s.rest.drop n := rfl

theorem past_skipped (s : Stand) (n : Nat) (skipped : kind.isSkipped = true) :
    s.past kind n = ⟨s.place.advance (s.rest.take n), s.seen, s.rest.drop n⟩ := by
  simp only [past, classify_eq_none_iff.mpr skipped]

theorem seen_past (s : Stand) (n : Nat) (kept : kind.isSkipped = false) :
    ∃ token, (s.past kind n).seen = token :: s.seen ∧ token.start = s.place ∧
      token.stop = (s.past kind n).place ∧ token.text = String.ofList (s.rest.take n) ∧
      classify kind token.text = some token.kind := by
  cases classified : classify kind (String.ofList (s.rest.take n)) with
  | none => simp [classify_eq_none_iff.mp classified] at kept
  | some token =>
      refine ⟨⟨token, String.ofList (s.rest.take n), s.place, s.place.advance (s.rest.take n)⟩,
        ?_, rfl, rfl, rfl, classified⟩
      simp only [past, classified]

theorem rest_ne_nil (found : s.next = some (kind, n + 1)) : s.rest ≠ [] := by
  intro empty
  have bound := nextLexeme_le found
  simp [empty] at bound

theorem run_past (found : s.next = some (kind, n + 1)) : s.run = (s.past kind (n + 1)).run := by
  obtain ⟨place, seen, rest⟩ := s
  cases rest with
  | nil => exact (rest_ne_nil found rfl).elim
  | cons c rest =>
      have found : nextLexeme place.line seen (c :: rest) = some (kind, n + 1) := found
      rw [run, run, scan, found]
      simp only [past, List.take_succ_cons, List.drop_succ_cons]
      cases classify kind (String.ofList (c :: rest.take n)) <;> rfl

/-- What a scan does next: it is at its end, it goes over a lexeme, or it fails. -/
theorem run_cases (s : Stand) :
    (s.rest = [] ∧ s.run = ⟨s.seen.reverse, none⟩) ∨
      (∃ kind n, s.next = some (kind, n + 1)) ∨
      (s.rest ≠ [] ∧ s.next = none ∧
        s.run = ⟨s.seen.reverse, some (errorAt s.place (diagnose s.rest))⟩) := by
  obtain ⟨place, seen, rest⟩ := s
  cases rest with
  | nil => exact .inl ⟨rfl, by simp [run, scan]⟩
  | cons c rest =>
      cases found : nextLexeme place.line seen (c :: rest) with
      | none => exact .inr (.inr ⟨List.cons_ne_nil c rest, found, by rw [run, scan, found]⟩)
      | some lexeme =>
          obtain ⟨kind, n⟩ := lexeme
          obtain ⟨n, rfl⟩ := Nat.exists_eq_add_of_le' (nextLexeme_pos found)
          exact .inr (.inl ⟨kind, n, found⟩)

/-- A scan that stands at `s` comes to stand at `t`. -/
inductive Leads : Stand → Stand → Prop
  | refl (s : Stand) : Leads s s
  | step {s t : Stand} {kind : LexemeKind} {n : Nat} : s.next = some (kind, n + 1) →
      Leads (s.past kind (n + 1)) t → Leads s t

namespace Leads

theorem trans (first : s.Leads t) (second : t.Leads u) : s.Leads u := by
  induction first with
  | refl => exact second
  | step found _ ih => exact .step found (ih second)

theorem run_eq (leads : s.Leads t) : s.run = t.run := by
  induction leads with
  | refl => rfl
  | step found _ ih => rw [run_past found, ih]

theorem passed (leads : s.Leads t) :
    ∃ piece, s.rest = piece ++ t.rest ∧ t.place = s.place.advance piece := by
  induction leads with
  | refl => exact ⟨[], by simp, rfl⟩
  | @step s t kind n found _ ih =>
      obtain ⟨piece, whole, there⟩ := ih
      rw [rest_past] at whole
      rw [place_past] at there
      refine ⟨s.rest.take (n + 1) ++ piece, ?_, by rw [there, Position.advance_append]⟩
      rw [List.append_assoc, ← whole, List.take_append_drop]

theorem seen_suffix (leads : s.Leads t) : s.seen <:+ t.seen := by
  induction leads with
  | refl s => exact List.suffix_refl _
  | @step s t kind n found _ ih =>
      cases skipped : kind.isSkipped with
      | true =>
          rw [past_skipped s (n + 1) skipped] at ih
          exact ih
      | false =>
          obtain ⟨token, pushed, _⟩ := s.seen_past (n + 1) skipped
          rw [pushed] at ih
          exact (List.suffix_cons token s.seen).trans ih

/-- On the way from one stand to another, a scan stands in front of each token that it finds. -/
theorem standing (leads : s.Leads t) {i : Nat} {token : Token} (behind : s.seen.length ≤ i)
    (found : t.seen.reverse[i]? = some token) :
    ∃ u kind n, s.Leads u ∧ u.next = some (kind, n + 1) ∧ (u.past kind (n + 1)).Leads t ∧
      u.seen.length = i ∧ (u.past kind (n + 1)).seen = token :: u.seen ∧
      u.place = token.start ∧ (u.past kind (n + 1)).place = token.stop := by
  induction leads with
  | refl s =>
      have absent := List.getElem?_eq_none (l := s.seen.reverse) (by simpa using behind)
      rw [absent] at found
      contradiction
  | @step s t kind n next later ih =>
      have go (behind : (s.past kind (n + 1)).seen.length ≤ i) := ih behind found
      cases skipped : kind.isSkipped with
      | true =>
          rw [past_skipped s (n + 1) skipped] at go
          obtain ⟨u, kind', n', reached, rest⟩ := go behind
          exact ⟨u, kind', n', .step next (past_skipped s (n + 1) skipped ▸ reached), rest⟩
      | false =>
          obtain ⟨other, pushed, start, stop, _⟩ := s.seen_past (n + 1) skipped
          rcases Nat.eq_or_lt_of_le behind with here | beyond
          · -- the token that this lexeme gives is the one that is asked for
            obtain ⟨more, whole⟩ := later.seen_suffix
            have same : other = token := by
              rw [← whole, pushed, List.reverse_append, List.reverse_cons, List.append_assoc,
                List.getElem?_append_right (by simp [here])] at found
              simpa [here] using found
            subst same
            exact ⟨s, kind, n, .refl s, next, later, here, pushed, start.symm, stop.symm⟩
          · obtain ⟨u, kind', n', reached, rest⟩ := go (by rw [pushed]; exact beyond)
            exact ⟨u, kind', n', .step next reached, rest⟩

end Leads

/-- A scan comes to the end of its text, or to a place where no lexeme starts. -/
theorem leads_to_stop (s : Stand) : ∃ t, s.Leads t ∧
    ((t.rest = [] ∧ t.run = ⟨t.seen.reverse, none⟩) ∨
      (t.rest ≠ [] ∧ t.next = none ∧
        t.run = ⟨t.seen.reverse, some (errorAt t.place (diagnose t.rest))⟩)) := by
  induction size : s.rest.length using Nat.strongRecOn generalizing s with
  | ind left ih =>
      rcases s.run_cases with ended | ⟨kind, n, found⟩ | failed
      · exact ⟨s, .refl s, .inl ended⟩
      · have bound := nextLexeme_le found
        have shorter : (s.past kind (n + 1)).rest.length < left := by
          rw [rest_past, List.length_drop]
          omega
        obtain ⟨t, reached, stops⟩ := ih _ shorter _ rfl
        exact ⟨t, .step found reached, stops⟩
      · exact ⟨s, .refl s, .inr failed⟩

/-- A scan that does not fail comes to the end of its text with all its tokens. -/
theorem leads_to_end {tokens : List Token} (complete : s.run = ⟨tokens, none⟩) :
    ∃ place, s.Leads ⟨place, tokens.reverse, []⟩ := by
  obtain ⟨⟨place, seen, rest⟩, reached, ⟨ended, all⟩ | ⟨_, _, failed⟩⟩ := s.leads_to_stop
  · rw [← reached.run_eq, complete, Lexing.mk.injEq] at all
    refine ⟨place, ?_⟩
    simp only at ended
    rw [all.1, List.reverse_reverse, ← ended]
    exact reached
  · rw [← reached.run_eq, complete, Lexing.mk.injEq] at failed
    exact (Option.some_ne_none _ failed.2.symm).elim

/-- Every token that a scan has behind it ends on the line of the scan or on one before. -/
theorem lines_of_leads {cs : List Char} (leads : (atStart cs).Leads t) :
    1 ≤ t.place.line ∧ ∀ token ∈ t.seen, 1 ≤ token.start.line ∧
      token.start.line ≤ token.stop.line ∧ token.stop.line ≤ t.place.line := by
  have keeps {s t : Stand} (leads : s.Leads t) (here : 1 ≤ s.place.line)
      (each : ∀ token ∈ s.seen, 1 ≤ token.start.line ∧
        token.start.line ≤ token.stop.line ∧ token.stop.line ≤ s.place.line) :
      1 ≤ t.place.line ∧ ∀ token ∈ t.seen, 1 ≤ token.start.line ∧
        token.start.line ≤ token.stop.line ∧ token.stop.line ≤ t.place.line := by
    induction leads with
    | refl => exact ⟨here, each⟩
    | @step s t kind n found _ ih =>
        have onward := s.place.line_le_advance (s.rest.take (n + 1))
        have before : ∀ token ∈ s.seen, 1 ≤ token.start.line ∧
            token.start.line ≤ token.stop.line ∧
            token.stop.line ≤ (s.place.advance (s.rest.take (n + 1))).line := by
          intro token member
          obtain ⟨first, second, third⟩ := each token member
          exact ⟨first, second, third.trans onward⟩
        apply ih
        · rw [place_past]
          exact here.trans onward
        · rw [place_past]
          cases skipped : kind.isSkipped with
          | true =>
              rw [past_skipped s (n + 1) skipped]
              exact before
          | false =>
              obtain ⟨token, pushed, start, stop, _⟩ := s.seen_past (n + 1) skipped
              rw [place_past] at stop
              intro other member
              rw [pushed] at member
              rcases List.mem_cons.mp member with rfl | earlier
              · rw [start, stop]
                exact ⟨here, onward, Int.le_refl _⟩
              · exact before other earlier
  exact keeps leads (Int.le_refl 1) (by simp [atStart])

/-- The stand `s` of a text that starts at `base` behind the tokens `context` and that `tail`
follows, in the text around it. -/
def within (base : Position) (context : List Token) (tail : List Char) (s : Stand) : Stand :=
  ⟨base.within s.place, s.seen.map (Token.within base) ++ context, s.rest ++ tail⟩

theorem past_within (base : Position) (context : List Token) (tail : List Char)
    (counted : 1 ≤ s.place.line) (bound : n ≤ s.rest.length) :
    (s.within base context tail).past kind n = (s.past kind n).within base context tail := by
  have front : (s.rest ++ tail).take n = s.rest.take n := List.take_append_of_le_length bound
  have back : (s.rest ++ tail).drop n = s.rest.drop n ++ tail := List.drop_append_of_le_length bound
  have there := base.within_advance counted (s.rest.take n)
  simp only [past, within, front, back, ← there]
  cases classify kind (String.ofList (s.rest.take n)) <;> rfl

end Stand

/-- Where no bracket stands, and where no header name is closed, it does not matter whether one is
expected. -/
theorem nextLexeme_eq {line line' : Int} {seen seen' : List Token} {cs : List Char}
    (alike : cs.head? = some '<' → (headerLength cs).isSome = true →
      headerExpected line seen = headerExpected line' seen') :
    nextLexeme line seen cs = nextLexeme line' seen' cs := by
  by_cases bracket : cs.head? = some '<'
  · cases header : headerLength cs with
    | none => simp [nextLexeme, header]
    | some n =>
        have same := alike bracket (by simp [header])
        simp [nextLexeme, same]
  · simp [nextLexeme, bracket]

/-- A hash mark, an include directive and a third token in front of them tell all that is asked for
a header name, wherever their text stands. -/
theorem headerExpected_within (base : Position) (context : List Token) (line : Int)
    {seen : List Token} (enough : 3 ≤ seen.length) :
    headerExpected (base.line + line - 1) (seen.map (Token.within base) ++ context) =
      headerExpected line seen := by
  obtain _ | ⟨directive, _ | ⟨hash, _ | ⟨before, earlier⟩⟩⟩ := seen
  · simp at enough
  · simp at enough
  · simp at enough
  · have lines (a b : Int) : base.line + a - 1 = base.line + b - 1 ↔ a = b := by omega
    simp only [headerExpected, List.map_cons, List.cons_append, Token.within, Token.lastLine,
      Position.line_within, lines, bne, Bool.beq_eq_decide_eq]

end Lexer

end TokenSearch
