import TokenSearch.Proofs.Lexer.Extend

/-! Text that is put below other text. Where whole lines end the text above, the tokens below are
the tokens of the lower text, and its fault is its own fault, further down. -/

namespace TokenSearch

open Text

/-- A place in a text that stands below the lines `above`. -/
def Position.below (above : Bytes) (place : Position) : Position :=
  ⟨place.offset + above.length, place.line + above.count lineFeed, place.column⟩

def Token.below (above : Bytes) (token : Token) : Token :=
  { token with start := token.start.below above, stop := token.stop.below above }

def LexError.below (above : Bytes) (error : LexError) : LexError :=
  { error with
    offset := error.offset + above.length
    line := error.line + above.count lineFeed }

/-- A fault in a text that starts at `base`, told from where `base` is counted. -/
def LexError.within (base : Position) (error : LexError) : LexError :=
  let place := base.within ⟨error.offset, error.line, error.column⟩
  { error with offset := place.offset, line := place.line, column := place.column }

theorem Position.within_behind {above : Bytes} (first : (behind above).column = 1)
    (place : Position) : (behind above).within place = place.below above := by
  simp only [within, first, below, Position.mk.injEq]
  refine ⟨?_, ?_, ?_⟩
  · simp only [behind]
    omega
  · simp only [behind]
    omega
  · split <;> omega

theorem Position.behind_append (left right : Bytes) :
    behind (left ++ right) = (behind left).within (behind right) := by
  induction right using List.reverseRecOn with
  | nil => simp [behind_nil]
  | append_singleton right byte ih =>
      have counted : 1 ≤ (behind right).line := by
        simp only [behind]
        omega
      rw [← List.append_assoc]
      by_cases feed : byte = lineFeed
      · subst feed
        have later : (behind right).line + 1 ≠ 1 := by omega
        rw [behind_append_lineFeed, behind_append_lineFeed, ih]
        simp only [within, later, if_false, mk.injEq, and_true]
        omega
      · have plain : lineFeed ∉ [byte] := by simpa [eq_comm] using feed
        rw [behind_append_plain plain, behind_append_plain plain, ih]
        simp only [within, mk.injEq, true_and]
        refine ⟨by omega, ?_⟩
        split <;> omega

namespace Lexer

/-- What a text gives that starts at `base` behind the tokens `context`. -/
def Lexing.within (base : Position) (context : List Token) (lexing : Lexing) : Lexing :=
  ⟨context.reverse ++ lexing.tokens.map (Token.within base),
    lexing.failure.map (LexError.within base)⟩

/-- The tokens of a text end on lines before the one of `base`. -/
def EndBefore (base : Position) (context : List Token) : Prop :=
  ∀ token ∈ context, token.start.line ≤ token.stop.line ∧ token.stop.line < base.line

/-- The tokens of lines further up have no say in where header names are expected. -/
theorem headerExpected_below {base : Position} {context : List Token}
    (ended : EndBefore base context) {line : Int} (counted : 1 ≤ line) {seen : List Token}
    (each : ∀ token ∈ seen, 1 ≤ token.start.line ∧ 1 ≤ token.stop.line) :
    headerExpected (base.line + line - 1) (seen.map (Token.within base) ++ context) =
      headerExpected line seen := by
  rcases seen with _ | ⟨directive, _ | ⟨hash, _ | ⟨before, earlier⟩⟩⟩
  · obtain _ | ⟨directive, _ | ⟨hash, earlier⟩⟩ := context
    · rfl
    · rfl
    · have above := (ended directive (by simp)).2
      have apart : directive.stop.line ≠ base.line + line - 1 := by omega
      simp [headerExpected, apart]
  · obtain _ | ⟨hash, earlier⟩ := context
    · rfl
    · have above := ended hash (by simp)
      have here := (each directive (by simp)).2
      have apart : hash.start.line ≠ base.line + directive.stop.line - 1 := by omega
      simp [headerExpected, Token.within, apart]
  · have lines (a b : Int) : base.line + a - 1 = base.line + b - 1 ↔ a = b := by omega
    obtain _ | ⟨before, earlier⟩ := context
    · simp only [headerExpected, List.map_cons, List.map_nil, List.nil_append, List.cons_append,
        Token.within, Position.line_within, lines]
    · have above := (ended before (by simp)).2
      have here := (each hash (by simp)).1
      have apart : before.stop.line ≠ base.line + hash.start.line - 1 := by omega
      simp [headerExpected, Token.within, Token.lastLine, lines, apart]
  · exact headerExpected_within base context line (by simp)

/-- A text is scanned below other lines as it is scanned alone. -/
theorem scan_below {base : Position} {context : List Token} (ended : EndBefore base context)
    {place : Position} {seen : List Token} (counted : 1 ≤ place.line)
    (each : ∀ token ∈ seen, 1 ≤ token.start.line ∧ 1 ≤ token.stop.line) (cs : List Char) :
    scan (base.within place) (seen.map (Token.within base) ++ context) cs =
      (scan place seen cs).within base context := by
  have alike {place : Position} {seen : List Token} (counted : 1 ≤ place.line)
      (each : ∀ token ∈ seen, 1 ≤ token.start.line ∧ 1 ≤ token.stop.line) (cs : List Char) :
      nextLexeme (base.within place).line (seen.map (Token.within base) ++ context) cs =
        nextLexeme place.line seen cs :=
    nextLexeme_eq (fun _ _ => headerExpected_below ended counted each)
  fun_induction scan place seen cs with
  | case1 place seen =>
      simp [scan, Lexing.within]
  | case2 place seen c rest kind n found piece after text skipped ih =>
      have gap : classify kind (String.ofList (c :: rest.take n)) = none := skipped
      have onward : 1 ≤ after.line := counted.trans (place.line_le_advance piece)
      rw [scan, alike counted each, found]
      simp only [gap, ← base.within_advance counted]
      exact ih onward each
  | case3 place seen c rest kind n found piece after text token kept ih =>
      have isToken : classify kind (String.ofList (c :: rest.take n)) = some token := kept
      have onward : 1 ≤ after.line := counted.trans (place.line_le_advance piece)
      rw [scan, alike counted each, found]
      simp only [isToken, ← base.within_advance counted]
      refine ih onward ?_
      intro other member
      rcases List.mem_cons.mp member with rfl | earlier
      · exact ⟨counted, onward⟩
      · exact each other earlier
  | case4 place seen c rest stuck =>
      rw [scan, alike counted each]
      split
      · rename_i kind n found
        exact (stuck kind n found).elim
      · simp [Lexing.within]
        rfl

/-- The last lexeme of a text is a run of blanks and splices. -/
def EndsInBlank (source : Bytes) : Prop :=
  ∃ cs stand, source = Utf8.encode cs ∧ (Stand.atStart cs).Leads stand ∧
    stand.next = some (.space, stand.rest.length)

/-- What a scan over whole lines leaves behind: a place at the start of a line, and tokens that end
on lines before it. -/
theorem scan_lines {cs : List Char} {stand : Stand} {tokens : List Token}
    (complete : scan .start [] cs = ⟨tokens, none⟩) (leads : (Stand.atStart cs).Leads stand)
    (blank : stand.next = some (.space, stand.rest.length)) (last : cs.getLast? = some '\n') :
    EndBefore (Position.start.advance cs) tokens.reverse ∧
      ∀ more, scan .start [] (cs ++ more) = scan (Position.start.advance cs) tokens.reverse more := by
  obtain ⟨size, positive⟩ : spaceRun stand.rest = stand.rest.length ∧ 0 < stand.rest.length := by
    cases lexeme_opens (lexeme_of_nextLexeme blank rfl) with
    | space counted => exact spaceLength_eq_some counted
  obtain ⟨piece, whole, there⟩ := leads.passed
  have split : cs = piece ++ stand.rest := whole
  have ending : stand.rest.getLast? = some '\n' := by
    rwa [split, List.getLast?_append_of_ne_nil _ (List.ne_nil_of_length_pos positive)] at last
  have final : stand.place.advance stand.rest = Position.start.advance cs := by
    rw [there, split, Position.advance_append]
    rfl
  -- blanks in front of `more` make the last lexeme longer, so the joined scan has no border there
  have merged (more : List Char) :
      spaceRun (stand.rest ++ more) = stand.rest.length + spaceRun more := by
    have counted := spaceRun_append stand.rest more
    rwa [size, List.take_length] at counted
  have onward (more : List Char) :
      scan .start [] (cs ++ more) = scan (Position.start.advance cs) stand.seen more := by
    have reached := (leads.followedBy complete ending more).run_eq
    rw [← final, ← scan_blank merged]
    exact reached
  have all : stand.seen = tokens.reverse := by
    have ended := onward []
    rw [List.append_nil, complete, scan, Lexing.mk.injEq] at ended
    rw [ended.1, List.reverse_reverse]
  rw [all] at onward
  refine ⟨fun token member => ?_, onward⟩
  rw [← all] at member
  obtain ⟨_, inside, behind⟩ := (Stand.lines_of_leads leads).2 token member
  refine ⟨inside, ?_⟩
  have feeds := List.count_pos_iff.mpr (List.mem_of_getLast? ending)
  rw [← final, line_advance]
  omega

theorem placeAfter_eq (bytes : Bytes) : placeAfter bytes = .behind bytes := by
  induction bytes using List.reverseRecOn with
  | nil => rfl
  | append_singleton bytes byte ih =>
      rw [placeAfter, List.foldl_append, ← placeAfter, ih, List.foldl_cons, List.foldl_nil]
      by_cases feed : byte = lineFeed
      · subst feed
        exact (Position.behind_append_lineFeed bytes).symm
      · have plain : lineFeed ∉ [byte] := by simpa [eq_comm] using feed
        rw [Position.behind_append_plain plain]
        exact if_neg feed

theorem lines_above {above : Bytes} {before : List Token} (accepted : tokenize above = .ok before)
    (border : above = [] ∨ above.getLast? = some lineFeed ∧ EndsInBlank above) :
    ∃ cs, above = Utf8.encode cs ∧ (Position.behind above).column = 1 ∧
      EndBefore (.behind above) before.reverse ∧
      ∀ more, scan .start [] (cs ++ more) = scan (.behind above) before.reverse more := by
  obtain ⟨cs, rfl, complete⟩ := tokenize_eq_ok.mp accepted
  refine ⟨cs, rfl, ?_⟩
  rcases border with empty | ⟨last, cs', stand, same, leads, blank⟩
  · have none_ : cs = [] := by
      by_contra filled
      exact encode_ne_nil filled empty
    subst none_
    rw [scan, Lexing.mk.injEq] at complete
    obtain ⟨rfl, _⟩ := complete
    exact ⟨rfl, by simp [EndBefore], fun more => rfl⟩
  · have whole : cs' = cs := by
      have decoded := congrArg Utf8.decode same
      rw [Utf8.decode_encode, Utf8.decode_encode] at decoded
      exact (Except.ok.inj decoded).symm
    subst whole
    have feed : cs'.getLast? = some '\n' := by
      by_contra plain
      exact getLast?_encode plain last
    obtain ⟨ended, onward⟩ := scan_lines complete leads blank feed
    rw [Position.start_advance] at ended onward
    refine ⟨?_, ended, onward⟩
    obtain ⟨front, split⟩ := List.getLast?_eq_some_iff.mp last
    rw [split, Position.behind_append_lineFeed]

/-- Where whole lines end a text, the tokens of the text below it come behind its own, further down,
and a fault there is the fault of the text below. -/
theorem tokenize_below {above text : Bytes} {before : List Token}
    (accepted : tokenize above = .ok before)
    (border : above = [] ∨ above.getLast? = some lineFeed ∧ EndsInBlank above) :
    ((∃ tokens, tokenize (above ++ text) = .ok tokens) ↔ ∃ tokens, tokenize text = .ok tokens) ∧
      (∀ tokens, tokenize text = .ok tokens →
        tokenize (above ++ text) = .ok (before ++ tokens.map (Token.below above))) ∧
      ∀ error, tokenize text = .error error →
        tokenize (above ++ text) = .error (error.below above) := by
  obtain ⟨cs, rfl, first, ended, onward⟩ := lines_above accepted border
  have tokenBelow : Token.within (.behind (Utf8.encode cs)) = Token.below (Utf8.encode cs) := by
    funext token
    simp only [Token.within, Token.below, Position.within_behind first]
  have errorBelow : LexError.within (.behind (Utf8.encode cs)) = LexError.below (Utf8.encode cs) := by
    funext error
    simp only [LexError.within, LexError.below, Position.within_behind first, Position.below]
  have joined : tokenize (Utf8.encode cs ++ text) =
      ((tokenize text).map (fun tokens => before ++ tokens.map (Token.below (Utf8.encode cs)))).mapError
        (LexError.below (Utf8.encode cs)) := by
    cases decoded : Utf8.decode text with
    | ok more =>
        have under := @scan_below _ _ ended .start [] (by decide) (by simp) more
        rw [Position.within_start, List.map_nil, List.nil_append, ← onward] at under
        simp only [tokenize, lex, Utf8.decode_append, decoded, under, Lexing.within, tokenBelow,
          errorBelow, List.reverse_reverse]
        cases scanned : scan .start [] more with
        | mk tokens failure => cases failure <;> rfl
    | error fault =>
        -- the text below is no UTF-8: the whole is refused before it is scanned
        have place : placeAfter (Utf8.encode cs ++ text.take fault.offset) =
            (placeAfter (text.take fault.offset)).below (Utf8.encode cs) := by
          rw [placeAfter_eq, placeAfter_eq, Position.behind_append, Position.within_behind first]
        simp only [tokenize, lex, Utf8.decode_append, decoded, List.take_length_add_append, place]
        rfl
  rw [joined]
  cases tokenize text with
  | ok tokens =>
      refine ⟨⟨fun _ => ⟨tokens, rfl⟩, fun _ => ⟨_, rfl⟩⟩, fun other same => ?_, fun error same => ?_⟩
      · cases same
        rfl
      · cases same
  | error error =>
      refine ⟨⟨fun accepted => ?_, fun accepted => ?_⟩, fun tokens same => ?_, fun other same => ?_⟩
      · obtain ⟨_, same⟩ := accepted
        cases same
      · obtain ⟨_, same⟩ := accepted
        cases same
      · cases same
      · cases same
        rfl

/-- A directive whose line ends before a header name could stand on it. -/
def headingText : Bytes := Utf8.encodeString "#include\n"

def headingTokens : List Token :=
  [⟨.punctuator, "#", ⟨0, 1, 1⟩, ⟨1, 1, 2⟩⟩, ⟨.identifier, "include", ⟨1, 1, 2⟩, ⟨8, 1, 9⟩⟩]

theorem headingText_endsInBlank : EndsInBlank headingText := by
  refine ⟨"#include\n".toList,
    ((Stand.atStart "#include\n".toList).past .punctuator 1).past .word 7, rfl, ?_, by cbv⟩
  exact @Stand.Leads.step _ _ .punctuator 0 (by cbv) (@Stand.Leads.step _ _ .word 6 (by cbv) (.refl _))

theorem headingText_below :
    tokenize (headingText ++ Utf8.encodeString "<b>\n'") =
      .error ⟨.unterminatedChar, 13, 3, 1, none⟩ :=
  (@tokenize_below headingText (Utf8.encodeString "<b>\n'") headingTokens
    (tokenize_eq_ok.mpr ⟨"#include\n".toList, rfl, by cbv⟩)
    (.inr ⟨rfl, headingText_endsInBlank⟩)).2.2 ⟨.unterminatedChar, 4, 2, 1, none⟩
    ((tokenize_encode "<b>\n'".toList).trans (by cbv))

end Lexer

end TokenSearch
