import TokenSearch.Proofs.Lexer.Extend
import TokenSearch.Proofs.Lexer.Language

namespace TokenSearch.Lexer

/-! Every token is the longest start of the text in front of it that its language has. -/

open Text

/-- The language of the texts that the lexemes of a kind have, if they are tokens. Words are one
language, whether they are keywords or not. -/
def LexemeKind.language : LexemeKind → List Char → Prop
  | .word => IsWord
  | .number => IsNumber
  | .string => IsString
  | .char => IsCharacter
  | .header => IsBracketed
  | .punctuator => (· ∈ punctuators)
  | .space | .lineComment | .blockComment => fun _ => False

/-- The class of the tokens that lexemes are, by the text of the lexeme. -/
inductive Classed (text : String) : LexemeKind → TokenKind → Prop
  | keyword : text ∈ keywords → Classed text .word .keyword
  | identifier : text ∉ keywords → Classed text .word .identifier
  | number : Classed text .number .number
  | string : Classed text .string .string
  | header : Classed text .header .string
  | char : Classed text .char .char
  | punctuator : Classed text .punctuator .punctuator

theorem classed_of_classify {family : LexemeKind} {text : String} {kind : TokenKind}
    (classified : classify family text = some kind) : Classed text family kind := by
  cases family <;> simp only [classify, Option.some.injEq, reduceCtorEq] at classified
  case word =>
    split at classified
    · rename_i known
      exact classified ▸ .keyword known
    · rename_i unknown
      exact classified ▸ .identifier unknown
  all_goals
    subst classified
    constructor

theorem longest_lexeme {cs : List Char} {family : LexemeKind} {n : Nat}
    (found : lexeme cs = some (family, n)) (kept : family.isSkipped = false) :
    Longest family.language cs n := by
  cases lexeme_opens found with
  | space | lineComment | blockComment => contradiction
  | string _ _ _ counted => exact longest_string counted
  | char _ _ _ _ counted => exact longest_character counted
  | number _ _ _ _ _ counted => exact longest_number counted
  | word _ _ _ _ _ _ counted => exact longest_word counted
  | punctuator _ _ _ _ _ _ _ counted => exact longest_punctuator counted

theorem longest_nextLexeme {line : Int} {seen : List Token} {cs : List Char} {family : LexemeKind}
    {n : Nat} (found : nextLexeme line seen cs = some (family, n))
    (kept : family.isSkipped = false) : Longest family.language cs n := by
  rcases nextLexeme_cases found with plain | ⟨rfl, _, header⟩
  · exact longest_lexeme plain kept
  · exact longest_bracketed header

/-- What a token is in front of `ahead`, the bytes from its first one on: it is of a family of
lexemes and of the class that its text has there, no longer start of `ahead` is of that family, and
it is not an encoding mark that a quote follows. -/
structure Munched (ahead : Bytes) (token : Token) : Prop where
  starts : Utf8.encodeString token.text <+: ahead
  longest : ∃ family, Classed token.text family token.kind ∧ family.language token.text.toList ∧
    ∀ other, Utf8.encode other <+: ahead → family.language other →
      other.length ≤ token.text.toList.length
  unquoted : token.text.toList ∈ encodingMarks → ∀ quote, quote = '"' ∨ quote = '\'' →
    ¬ Utf8.encode (token.text.toList ++ [quote]) <+: ahead

/-- At a quote that follows a word which could be its encoding mark, a scan does not go on. -/
theorem stuck_behind_mark {line line' : Int} {seen seen' : List Token} {mark more : List Char}
    {quote : Char} {family : LexemeKind} (isQuote : quote = '"' ∨ quote = '\'')
    (member : mark ∈ encodingMarks) (filled : mark ≠ [])
    (found : nextLexeme line seen (mark ++ quote :: more) = some (family, mark.length))
    (kept : family.isSkipped = false) : nextLexeme line' seen' (quote :: more) = none := by
  have outside : isWordChar quote = false := by
    rcases isQuote with rfl | rfl <;> decide
  have noQuote : ∀ mark ∈ encodingMarks, mark.getLast? ≠ some '"' ∧ mark.getLast? ≠ some '\'' ∧
      mark.head? ≠ some '<' := by decide
  obtain ⟨notString, notChar, notBracket⟩ := noQuote mark member
  have front : (mark ++ quote :: more).take mark.length = mark := List.take_left
  have head : (mark ++ quote :: more).head? ≠ some '<' := by
    cases mark with
    | nil => contradiction
    | cons c rest => simpa using notBracket
  have plain : lexeme (mark ++ quote :: more) = some (family, mark.length) := by
    rwa [nextLexeme, if_neg (by simp only [head, decide_false, Bool.false_and]; decide)] at found
  have open_ : stringLength (mark ++ quote :: more) = none ∧
      charLength (mark ++ quote :: more) = none := by
    cases lexeme_opens plain with
    | space | lineComment | blockComment => contradiction
    | string _ _ _ counted =>
        have last := (stringLength_shape counted).2
        rw [front] at last
        contradiction
    | char _ _ _ _ counted =>
        have last := (charLength_shape counted).2
        rw [front] at last
        contradiction
    | number _ _ _ string char _ => exact ⟨string, char⟩
    | word _ _ _ string char _ _ => exact ⟨string, char⟩
    | punctuator _ _ _ string char _ _ _ => exact ⟨string, char⟩
  -- A literal that does not close behind its mark does not close without the mark either.
  obtain ⟨string, char⟩ := unclosed_of_marked outside member open_.1 open_.2
  have stuck := lexeme_of_unclosed isQuote string char
  have notOpened : quote ≠ '<' := by
    rcases isQuote with rfl | rfl <;> decide
  simpa [nextLexeme, notOpened] using stuck

/-- A token of a scan, in front of all that the scan has still to read where the token starts. -/
theorem Stand.Leads.munched {u t : Stand} {family : LexemeKind} {n : Nat} {token : Token}
    (next : u.next = some (family, n + 1)) (later : (u.past family (n + 1)).Leads t)
    (ended : t.rest = []) (pushed : (u.past family (n + 1)).seen = token :: u.seen) :
    Munched (Utf8.encode u.rest) token := by
  have kept : family.isSkipped = false := by
    cases skipped : family.isSkipped with
    | false => rfl
    | true =>
        rw [Stand.past_skipped u (n + 1) skipped] at pushed
        exact (List.cons_ne_self token u.seen pushed.symm).elim
  obtain ⟨other, same, _, _, text, classified⟩ := u.seen_past (n + 1) kept
  obtain ⟨rfl, _⟩ := List.cons.inj (pushed.symm.trans same)
  have spelled : token.text.toList = u.rest.take (n + 1) := by rw [text, String.toList_ofList]
  have size : token.text.toList.length = n + 1 := by
    rw [spelled, List.length_take_of_le (nextLexeme_le next)]
  have longest := longest_nextLexeme next kept
  constructor
  · rw [Utf8.encodeString, spelled]
    refine ⟨Utf8.encode (u.rest.drop (n + 1)), ?_⟩
    rw [← Utf8.encode_append, List.take_append_drop]
  · refine ⟨family, classed_of_classify classified, spelled ▸ longest.inside, ?_⟩
    intro other starts member
    rw [size]
    exact longest.greatest other (Utf8.prefix_of_encode starts) member
  · intro member quote isQuote starts
    obtain ⟨more, whole⟩ := Utf8.prefix_of_encode starts
    rw [List.append_assoc, List.singleton_append] at whole
    have filled : token.text.toList ≠ [] := List.ne_nil_of_length_eq_add_one size
    have behind : (u.past family (n + 1)).rest = quote :: more := by
      rw [Stand.rest_past, ← whole, ← size, List.drop_left]
    have found : nextLexeme u.place.line u.seen (token.text.toList ++ quote :: more) =
        some (family, token.text.toList.length) := by
      rw [whole, size]
      exact next
    -- At the quote, the scan is neither at its end nor able to go on.
    cases later with
    | refl =>
        rw [behind] at ended
        contradiction
    | step onward _ =>
        rw [Stand.next, behind, stuck_behind_mark isQuote member filled found kept] at onward
        contradiction

/-- Each token of a text that lexes is of the class that its text has in its language, and no longer
text of that language starts where the token starts. A word is never the mark of a literal. -/
theorem tokenize_munches {source : Bytes} {tokens : List Token}
    (accepted : tokenize source = .ok tokens) :
    ∀ token ∈ tokens, Munched (source.drop token.start.offset.toNat) token := by
  intro token member
  obtain ⟨cs, rfl, complete⟩ := tokenize_eq_ok.mp accepted
  obtain ⟨place, reached⟩ := Stand.leads_to_end (s := .atStart cs) complete
  obtain ⟨i, held⟩ := List.getElem?_of_mem member
  obtain ⟨u, family, n, arrived, next, later, _, pushed, here, _⟩ :=
    reached.standing (i := i) (Nat.zero_le i) (by simpa using held)
  obtain ⟨before, whole, there⟩ := arrived.passed
  have ahead : (Utf8.encode cs).drop token.start.offset.toNat = Utf8.encode u.rest := by
    have whole : cs = before ++ u.rest := whole
    have there : u.place = Position.start.advance before := there
    rw [← here, there, Position.start_advance, Position.behind_offset, Int.toNat_natCast, whole,
      Utf8.encode_append, List.drop_left]
  rw [ahead]
  exact Stand.Leads.munched next later rfl pushed

/-- A marked literal with a quote inside, a number with a sign, a punctuator and a mark alone, all
without blanks. -/
def crowdedText : Bytes :=
  Utf8.encodeString "u8\"\\\"\"1e+5.>>=u"

def crowdedTokens : List Token :=
  [⟨.string, "u8\"\\\"\"", ⟨0, 1, 1⟩, ⟨6, 1, 7⟩⟩, ⟨.number, "1e+5.", ⟨6, 1, 7⟩, ⟨11, 1, 12⟩⟩,
    ⟨.punctuator, ">>=", ⟨11, 1, 12⟩, ⟨14, 1, 15⟩⟩, ⟨.identifier, "u", ⟨14, 1, 15⟩, ⟨15, 1, 16⟩⟩]

theorem crowdedText_munches :
    tokenize crowdedText = .ok crowdedTokens ∧
      ∀ token ∈ crowdedTokens, Munched (crowdedText.drop token.start.offset.toNat) token := by
  have accepted : tokenize crowdedText = .ok crowdedTokens :=
    tokenize_eq_ok.mpr ⟨"u8\"\\\"\"1e+5.>>=u".toList, rfl, by cbv⟩
  exact ⟨accepted, tokenize_munches accepted⟩

end TokenSearch.Lexer
