import TokenSearch.Proofs.Lexer.Stuck
import TokenSearch.Proofs.Lexer.Trail

namespace TokenSearch.Lexer

/-! Header names. They are found behind an include directive that starts a line, and nowhere else. -/

open Text

/-- Tokens, the last one first, that announce a header name on a line: a hash mark, the first token
that ends there, and an include directive. -/
structure Announces (line : Int) (seen : List Token) : Prop where
  directive : ∃ directive hash earlier, seen = directive :: hash :: earlier ∧
    hash.text ∈ ["#", "%:"] ∧ directive.kind = .identifier ∧
    directive.text ∈ ["include", "include_next", "import"] ∧
    (∀ token ∈ [hash, directive], token.start.line = line ∧ token.stop.line = line) ∧
    ∀ token ∈ earlier, token.stop.line ≠ line

/-- A scan stands in front of the header name `name`, which ends with the first closing bracket of
its line. -/
structure NamesHeader (stand : Stand) (name : List Char) : Prop where
  announced : Announces stand.place.line stand.seen
  closed : ∃ behind, stand.rest = '<' :: (name ++ '>' :: behind)
  filled : name ≠ []
  inner : '>' ∉ name ∧ '\n' ∉ name

/-- The last three tokens tell whether a header name is announced: the lines of tokens ascend, so
the token before the hash mark speaks for all that come before it. -/
theorem headerExpected_iff {cs : List Char} {t : Stand} (leads : (Stand.atStart cs).Leads t) :
    headerExpected t.place.line t.seen = true ↔ Announces t.place.line t.seen := by
  have ordered := Stand.lines_ordered leads
  have each := (Stand.lines_of_leads leads).2
  obtain ⟨place, seen, rest⟩ := t
  rw [List.pairwise_reverse] at ordered
  simp only at ordered each ⊢
  constructor
  · intro expected
    obtain _ | ⟨directive, _ | ⟨hash, earlier⟩⟩ := seen
    · contradiction
    · contradiction
    simp only [headerExpected, Bool.and_eq_true, decide_eq_true_eq] at expected
    obtain ⟨⟨⟨⟨⟨isName, known⟩, marked⟩, together⟩, here⟩, free⟩ := expected
    obtain ⟨behindAll, ordered⟩ := List.pairwise_cons.mp ordered
    obtain ⟨behindEarlier, ordered⟩ := List.pairwise_cons.mp ordered
    obtain ⟨_, directiveLines, _⟩ := each directive (by simp)
    obtain ⟨_, hashLines, _⟩ := each hash (by simp)
    have next := behindAll hash (by simp)
    refine ⟨directive, hash, earlier, rfl, marked, isName, known, ?_, ?_⟩
    · intro token member
      simp only [List.mem_cons, List.not_mem_nil, or_false] at member
      rcases member with rfl | rfl <;> constructor <;> omega
    · intro token member
      obtain _ | ⟨before, earlier⟩ := earlier
      · contradiction
      have apart : before.stop.line ≠ hash.start.line := by simpa [Token.lastLine] using free
      have bound := behindEarlier before (by simp)
      rcases List.mem_cons.mp member with rfl | further
      · omega
      · -- what is further back ends above the token before the hash mark
        obtain ⟨_, beforeLines, _⟩ := each before (by simp)
        have above := (List.pairwise_cons.mp ordered).1 token further
        omega
  · intro announced
    obtain ⟨directive, hash, earlier, same, marked, isName, known, lines, free⟩ :=
      announced.directive
    subst same
    obtain ⟨hashStart, _⟩ := lines hash (by simp)
    obtain ⟨_, directiveStop⟩ := lines directive (by simp)
    simp only [headerExpected, isName, hashStart, directiveStop, decide_true, Bool.and_true,
      Bool.true_and, Bool.and_eq_true, decide_eq_true_eq]
    refine ⟨⟨known, marked⟩, ?_⟩
    cases earlier with
    | nil => rfl
    | cons before earlier =>
        have apart := free before (List.mem_cons_self ..)
        simpa [Token.lastLine] using apart

theorem lexeme_of_bracket (rest : List Char) : ∃ n, lexeme ('<' :: rest) = some (.punctuator, n) := by
  cases found : lexeme ('<' :: rest) with
  | some lexeme =>
      obtain ⟨kind, n⟩ := lexeme
      obtain rfl := kind_of_bracket found rfl
      exact ⟨n, rfl⟩
  | none =>
      obtain ⟨_, _, _, others⟩ := lexeme_eq_none.mp found
      obtain ⟨_, _, _, _, absent⟩ := others rfl
      rw [punctuatorLength, Option.map_eq_none_iff, List.find?_eq_none] at absent
      exact (absent ['<'] (by decide) rfl).elim

theorem headerLength_of_names {stand : Stand} {name : List Char} (names : NamesHeader stand name) :
    headerLength stand.rest = some (name.length + 2) ∧
      stand.rest.take (name.length + 2) = '<' :: (name ++ ['>']) := by
  obtain ⟨behind, whole⟩ := names.closed
  constructor
  · refine headerLength_eq_some.mpr ⟨name, behind, whole, names.filled, ?_, rfl⟩
    intro c member
    have notClose : c ≠ '>' := by
      rintro rfl
      exact names.inner.1 member
    have notFeed : c ≠ '\n' := by
      rintro rfl
      exact names.inner.2 member
    simp [notClose, notFeed]
  · have split : stand.rest = '<' :: (name ++ ['>']) ++ behind := by simp [whole]
    rw [split]
    exact List.take_left' (by simp)

theorem names_of_headerLength {stand : Stand} {n : Nat}
    (announced : Announces stand.place.line stand.seen)
    (header : headerLength stand.rest = some n) : ∃ name, NamesHeader stand name := by
  obtain ⟨name, behind, whole, filled, each, _⟩ := headerLength_eq_some.mp header
  refine ⟨name, announced, ⟨behind, whole⟩, filled, ?_, ?_⟩
  · intro member
    simpa using each '>' member
  · intro member
    simpa using each '\n' member

/-- What a scan of a text does where it comes to stand on an opening bracket: if an include
directive announces a header name and one is there, the token is that name. Otherwise it is a
punctuator. -/
theorem bracket_starts_header_or_punctuator (cs : List Char) (stand : Stand)
    (leads : (Stand.atStart cs).Leads stand) (bracket : stand.rest.head? = some '<') :
    ∃ token, stand.seen.reverse ++ [token] <+: (lex (Utf8.encode cs)).tokens ∧
      token.start = stand.place ∧ token.stop = token.start.advance token.text.toList ∧
      ((∃ name, NamesHeader stand name ∧ token.kind = .string ∧
          token.text.toList = '<' :: (name ++ ['>'])) ∨
        (∀ name, ¬ NamesHeader stand name) ∧ token.kind = .punctuator) := by
  by_cases named : ∃ name, NamesHeader stand name
  · obtain ⟨name, names⟩ := named
    have expected := (headerExpected_iff leads).mpr names.announced
    obtain ⟨header, front⟩ := headerLength_of_names names
    have found : stand.next = some (.header, name.length + 2) := by
      simp [Stand.next, nextLexeme, bracket, expected, header]
    obtain ⟨token, given, start, stop, text, classified⟩ := leads.gives found rfl
    refine ⟨token, given, start, stop, .inl ⟨name, names, ?_, by rw [text, front]⟩⟩
    exact (Option.some.inj classified).symm
  · obtain ⟨rest, whole⟩ := List.head?_eq_some_iff.mp bracket
    obtain ⟨n, plain⟩ := lexeme_of_bracket rest
    have found : stand.next = some (.punctuator, n) := by
      have unnamed (announced : Announces stand.place.line stand.seen) :
          headerLength stand.rest = none := by
        rw [Option.eq_none_iff_forall_ne_some]
        exact fun n header => named (names_of_headerLength announced header)
      rw [Stand.next, nextLexeme, whole, plain, ← whole]
      split
      · rename_i both
        rw [Bool.and_eq_true, headerExpected_iff leads] at both
        rw [unnamed both.2]
      · rfl
    obtain ⟨token, given, start, stop, _, classified⟩ := leads.gives found rfl
    refine ⟨token, given, start, stop, .inr ⟨not_exists.mp named, ?_⟩⟩
    exact (Option.some.inj classified).symm

/-- A directive with the other hash mark, and a comment between it and its header name. -/
def importText : List Char :=
  "x\n%:import/**/<a>".toList

def importStand : Stand :=
  ((((Stand.atStart importText).past .word 1).past .space 1).past .punctuator 2).past .word 6
    |>.past .blockComment 4

theorem importStand_reached : (Stand.atStart importText).Leads importStand := by
  refine .step ?_ (.step ?_ (.step ?_ (.step ?_ (.step ?_ (.refl _))))) <;> cbv

theorem importStand_starts :
    ∃ token, importStand.seen.reverse ++ [token] <+: (lex (Utf8.encode importText)).tokens ∧
      token.start = importStand.place ∧ token.stop = token.start.advance token.text.toList ∧
      ((∃ name, NamesHeader importStand name ∧ token.kind = .string ∧
          token.text.toList = '<' :: (name ++ ['>'])) ∨
        (∀ name, ¬ NamesHeader importStand name) ∧ token.kind = .punctuator) :=
  bracket_starts_header_or_punctuator importText importStand importStand_reached (by decide)

end TokenSearch.Lexer
