import TokenSearch.Proofs.Lexer.Munch

namespace TokenSearch.Lexer

/-! Text that no lexeme starts: a comment or a literal that stays open, or a byte that is no part
of the language. -/

open Text

/-- No quote closes a literal behind its opening quote: there is none before a line feed that no
backslash takes, or before the end. -/
def Unclosed (quote : Char) (rest : List Char) : Prop :=
  ∀ inner, QuotedText quote inner → ¬ inner ++ [quote] <+: rest

/-- Nothing that the lexer knows starts with what `cs` starts with. A literal starts with its mark
and its quote. -/
structure StartsNothing (cs : List Char) : Prop where
  gap : ∀ piece, GapPiece piece → ¬ piece <+: cs
  literal : ∀ mark ∈ encodingMarks, ∀ quote, quote = '"' ∨ quote = '\'' → ¬ mark ++ [quote] <+: cs
  number : ∀ other, IsNumber other → ¬ other <+: cs
  word : ∀ other, IsWord other → ¬ other <+: cs
  punctuator : ∀ mark ∈ punctuators, ¬ mark <+: cs

/-- Why no lexeme starts a text, in words. -/
inductive Stuck : List Char → String → Prop
  | comment {rest : List Char} : ¬ ['*', '/'] <:+: rest →
      Stuck ('/' :: '*' :: rest) "unterminated block comment"
  | string {rest : List Char} : Unclosed '"' rest → Stuck ('"' :: rest) "unterminated string literal"
  | emptyCharacter {rest : List Char} : Stuck ('\'' :: '\'' :: rest) "empty character literal"
  | character {rest : List Char} : Unclosed '\'' rest →
      Stuck ('\'' :: rest) "unterminated character literal"
  | unexpected {c : Char} {rest : List Char} {byte : UInt8} {more : Bytes} :
      String.utf8EncodeChar c = byte :: more → StartsNothing (c :: rest) →
      Stuck (c :: rest) ("unexpected character " ++ Quoted.bytes [byte])

theorem quotedBody_eq_none {quote : Char} (noMark : quote ≠ '\\') (noFeed : quote ≠ '\n')
    {rest : List Char} : quotedBody quote rest = none ↔ Unclosed quote rest := by
  constructor
  · intro absent inner text starts
    obtain ⟨more, whole⟩ := starts
    rw [List.append_assoc, List.singleton_append] at whole
    rw [← whole, body_of_quotedText noMark noFeed text more] at absent
    contradiction
  · intro unclosed
    rw [Option.eq_none_iff_forall_ne_some]
    intro n found
    obtain ⟨inner, text, front, _⟩ := quotedText_of_body found
    apply unclosed inner text
    rw [← front]
    exact List.take_prefix n rest

theorem blockBody_eq_none {cs : List Char} : blockBody cs = none ↔ ¬ ['*', '/'] <:+: cs := by
  fun_induction blockBody cs with
  | case1 => simp
  | case2 rest => simpa using ⟨[], rest, rfl⟩
  | case3 c rest notClosing ih =>
      have start : ¬ ['*', '/'] <+: c :: rest := by
        intro starts
        obtain ⟨rfl, behind⟩ := List.cons_prefix_cons.mp starts
        obtain ⟨more, rfl⟩ := behind
        exact notClosing more rfl rfl
      rw [Option.map_eq_none_iff, ih, List.infix_cons_iff]
      simp [start]

theorem lexeme_eq_none {cs : List Char} : lexeme cs = none ↔
    spaceLength cs = none ∧ lineCommentLength cs = none ∧ blockCommentLength cs = none ∧
      (opensBlockComment cs = false → stringLength cs = none ∧ charLength cs = none ∧
        numberLength cs = none ∧ wordLength cs = none ∧ punctuatorLength cs = none) := by
  cases blank : spaceLength cs with
  | some n => simp [lexeme, blank]
  | none =>
  cases line : lineCommentLength cs with
  | some n => simp [lexeme, blank, line]
  | none =>
  cases block : blockCommentLength cs with
  | some n => simp [lexeme, blank, line, block]
  | none =>
  cases opened : opensBlockComment cs with
  | true => simp [lexeme, blank, line, block, opened]
  | false =>
  simp only [lexeme, blank, line, block, opened]
  cases stringLength cs <;> cases charLength cs <;> cases numberLength cs <;>
    cases wordLength cs <;> simp

theorem lexeme_of_nextLexeme_eq_none {line : Int} {seen : List Token} {cs : List Char}
    (stuck : nextLexeme line seen cs = none) : lexeme cs = none := by
  unfold nextLexeme at stuck
  split at stuck
  · split at stuck
    · contradiction
    · exact stuck
  · exact stuck

/-- In front of a quote that no word starts with, there is no mark. -/
theorem quote_of_wordless {quote : Char} (outside : isWordChar quote = false) {cs : List Char}
    {n : Nat} (wordless : wordLength cs = none) (opened : opening quote cs = some n) :
    ∃ rest, cs = quote :: rest := by
  obtain ⟨c, head, start⟩ := opening_head outside opened
  obtain ⟨rest, rfl⟩ := List.head?_eq_some_iff.mp head
  rcases start with rfl | letter
  · exact ⟨rest, rfl⟩
  · have counted : isLetter c = true := by
      simp only [List.mem_cons, List.not_mem_nil, or_false] at letter
      rcases letter with rfl | rfl | rfl <;> decide
    simp [wordLength, counted] at wordless

theorem not_gapPiece_of_stuck {cs piece : List Char} (stuck : lexeme cs = none)
    (gap : GapPiece piece) : ¬ piece <+: cs := by
  obtain ⟨blank, line, block, _⟩ := lexeme_eq_none.mp stuck
  rw [spaceLength_eq_none] at blank
  intro starts
  obtain ⟨more, rfl⟩ := starts
  cases gap with
  | blank space =>
      rw [List.singleton_append, spaceRun.eq_def] at blank
      split at blank <;> simp_all [isSpace]
  | splice => simp [spaceRun] at blank
  | carriedSplice => simp [spaceRun] at blank
  | lineComment _ => exact lineCommentLength_eq_none.mp line ⟨_, rfl⟩
  | @blockComment body _ =>
      rw [List.cons_append, List.cons_append, blockCommentLength, Option.map_eq_none_iff,
        blockBody_eq_none] at block
      exact block ⟨body, more, rfl⟩

theorem startsNothing_of_stuck {cs : List Char} (stuck : lexeme cs = none)
    (noBlock : opensBlockComment cs = false) (noString : opening '"' cs = none)
    (noChar : opening '\'' cs = none) : StartsNothing cs := by
  obtain ⟨_, _, _, others⟩ := lexeme_eq_none.mp stuck
  obtain ⟨_, _, number, word, punctuator⟩ := others noBlock
  constructor
  · exact fun piece gap => not_gapPiece_of_stuck stuck gap
  · intro mark member quote isQuote starts
    have opened (outside : isWordChar quote = false) : opening quote cs ≠ none := by
      rw [(opening_eq_some outside).mpr ⟨mark, member, starts, rfl⟩]
      exact Option.some_ne_none _
    rcases isQuote with rfl | rfl
    · exact opened (by decide) noString
    · exact opened (by decide) noChar
  · intro other isNumber starts
    obtain ⟨behind, rfl⟩ := starts
    obtain ⟨d, rest, digit, _, form⟩ := isNumber
    have counted : numberLength (other ++ behind) ≠ none := by
      rw [Option.ne_none_iff_exists']
      rcases form with rfl | rfl
      · exact ⟨_, numberLength_eq_some.mpr ⟨d, rest ++ behind, digit, .inr ⟨rfl, rfl⟩⟩⟩
      · exact ⟨_, numberLength_eq_some.mpr ⟨d, rest ++ behind, digit, .inl ⟨rfl, rfl⟩⟩⟩
    exact counted number
  · intro other isWord starts
    obtain ⟨behind, rfl⟩ := starts
    obtain ⟨c, rest, letter, _, rfl⟩ := isWord
    simp [wordLength, letter] at word
  · intro mark member starts
    rw [punctuatorLength, Option.map_eq_none_iff, List.find?_eq_none] at punctuator
    exact punctuator mark member (List.isPrefixOf_iff_prefix.mpr starts)

/-- Where nothing starts there is no lexeme: whatever its class, one would start there. -/
theorem StartsNothing.lexeme_eq {cs : List Char} (nothing : StartsNothing cs) :
    lexeme cs = none := by
  have noLiteral {quote : Char} (isQuote : quote = '"' ∨ quote = '\'') {inner : List Char} {n : Nat}
      (quoted : IsQuoted quote inner (cs.take n)) : False := by
    obtain ⟨mark, member, _, whole⟩ := quoted
    refine nothing.literal mark member quote isQuote (.trans ?_ (List.take_prefix n cs))
    exact ⟨inner ++ [quote], by rw [whole]; simp⟩
  rw [Option.eq_none_iff_forall_ne_some]
  rintro ⟨kind, n⟩ found
  have starts := List.take_prefix n cs
  cases lexeme_opens found with
  | space | lineComment | blockComment =>
      obtain ⟨bound, pieces, each, whole⟩ := isGap_of_skipped found rfl
      -- a gap that is found has a first piece, and that starts the text
      cases pieces with
      | nil =>
          have size := congrArg List.length whole
          have positive := lexeme_pos found
          rw [List.length_take_of_le bound] at size
          exact absurd size positive.ne
      | cons piece pieces =>
          rw [← whole, List.flatten_cons] at starts
          exact nothing.gap piece (each piece (List.mem_cons_self ..))
            ((List.prefix_append piece pieces.flatten).trans starts)
  | string _ _ _ counted =>
      obtain ⟨inner, quoted⟩ := (longest_string counted).inside
      exact noLiteral (.inl rfl) quoted
  | char _ _ _ _ counted =>
      obtain ⟨inner, _, quoted⟩ := (longest_character counted).inside
      exact noLiteral (.inr rfl) quoted
  | number _ _ _ _ _ counted => exact nothing.number _ (longest_number counted).inside starts
  | word _ _ _ _ _ _ counted => exact nothing.word _ (longest_word counted).inside starts
  | punctuator _ _ _ _ _ _ _ counted =>
      exact nothing.punctuator _ (longest_punctuator counted).inside starts

theorem StartsNothing.diagnose_eq {c : Char} {rest : List Char}
    (nothing : StartsNothing (c :: rest)) :
    diagnose (c :: rest) = .unexpected ((String.utf8EncodeChar c).headD 0) := by
  have opened {quote : Char} (isQuote : quote = '"' ∨ quote = '\'')
      (outside : isWordChar quote = false) : opening quote (c :: rest) = none := by
    rw [Option.eq_none_iff_forall_ne_some]
    intro n found
    obtain ⟨mark, member, starts, _⟩ := (opening_eq_some outside).mp found
    exact nothing.literal mark member quote isQuote starts
  have block : opensBlockComment (c :: rest) = false := by
    rw [opensBlockComment_eq_false]
    exact fun starts => nothing.punctuator ['/'] (by decide) (.trans ⟨['*'], rfl⟩ starts)
  simp [diagnose, block, opened (.inl rfl) (by decide), opened (.inr rfl) (by decide)]

theorem opening_cons (quote first : Char) (outside : isWordChar quote = false)
    (solid : isWordChar first = false) (rest : List Char) :
    opening quote (first :: rest) = if quote = first then some 1 else none := by
  split
  · rename_i same
    subst same
    exact opening_marked outside (List.mem_cons_self ..) rest
  · rename_i other
    rw [Option.eq_none_iff_forall_ne_some]
    exact fun n found => other (quote_of_opening outside solid found).1

theorem stringLength_cons (rest : List Char) :
    stringLength ('"' :: rest) = (quotedBody '"' rest).map (1 + ·) := by
  simp only [stringLength, opening_cons '"' '"' (by decide) (by decide),
    if_true, Option.bind_eq_bind, Option.bind_some, List.drop_succ_cons, List.drop_zero]
  cases quotedBody '"' rest <;> rfl

theorem charLength_cons (rest : List Char) :
    charLength ('\'' :: rest) = (quotedBody '\'' rest).bind
      (fun m => if m = 1 then none else some (1 + m)) := by
  simp only [charLength, opening_cons '\'' '\'' (by decide) (by decide),
    if_true, Option.bind_eq_bind, Option.bind_some, List.drop_succ_cons, List.drop_zero]
  rfl

theorem lexeme_string_eq_none {rest : List Char} :
    lexeme ('"' :: rest) = none ↔ Unclosed '"' rest := by
  rw [← quotedBody_eq_none (by decide) (by decide)]
  constructor
  · intro stuck
    have absent := ((lexeme_eq_none.mp stuck).2.2.2 rfl).1
    rwa [stringLength_cons, Option.map_eq_none_iff] at absent
  · intro body
    apply lexeme_of_unclosed (.inl rfl)
    · rw [stringLength_cons, body]
      rfl
    · simp [charLength, opening_cons '\'' '"' (by decide) (by decide)]

theorem lexeme_char_eq_none {rest : List Char} :
    lexeme ('\'' :: rest) = none ↔ rest.head? = some '\'' ∨ Unclosed '\'' rest := by
  have empty : quotedBody '\'' rest = some 1 ↔ rest.head? = some '\'' := by
    constructor
    · intro closed
      have last := (quotedBody_shape closed).2.2
      cases rest with
      | nil => contradiction
      | cons c rest => simpa using last
    · intro head
      obtain ⟨more, rfl⟩ := List.head?_eq_some_iff.mp head
      simp [quotedBody]
  rw [← quotedBody_eq_none (by decide) (by decide), ← empty]
  constructor
  · intro stuck
    have absent := ((lexeme_eq_none.mp stuck).2.2.2 rfl).2.1
    rw [charLength_cons] at absent
    cases body : quotedBody '\'' rest with
    | none => exact .inr rfl
    | some m =>
        left
        simpa [body] using absent
  · intro refused
    apply lexeme_of_unclosed (.inr rfl)
    · simp [stringLength, opening_cons '"' '\'' (by decide) (by decide)]
    · rw [charLength_cons]
      rcases refused with body | body <;> simp [body]

theorem diagnose_comment (rest : List Char) :
    diagnose ('/' :: '*' :: rest) = .unterminatedComment := by
  simp [diagnose, opensBlockComment]

theorem diagnose_string (rest : List Char) : diagnose ('"' :: rest) = .unterminatedString := by
  simp [diagnose, opensBlockComment,
    opening_cons '"' '"' (by decide) (by decide)]

theorem diagnose_char (rest : List Char) : diagnose ('\'' :: rest) =
    if rest.head? = some '\'' then .emptyChar else .unterminatedChar := by
  simp [diagnose, opensBlockComment,
    opening_cons '"' '\'' (by decide) (by decide),
    opening_cons '\'' '\'' (by decide) (by decide)]

theorem Stuck.diagnosed {cs : List Char} {words : String} (stuck : Stuck cs words) :
    cs ≠ [] ∧ lexeme cs = none ∧ words = (diagnose cs).message := by
  cases stuck with
  | @comment rest opened =>
      refine ⟨List.cons_ne_nil _ _, ?_, by rw [diagnose_comment]; rfl⟩
      simp [lexeme_eq_none, spaceLength, spaceRun, isSpace, lineCommentLength,
        blockCommentLength, blockBody_eq_none.mpr opened, opensBlockComment]
  | @string rest unclosed =>
      exact ⟨List.cons_ne_nil _ _, lexeme_string_eq_none.mpr unclosed,
        by rw [diagnose_string]; rfl⟩
  | @emptyCharacter rest =>
      refine ⟨List.cons_ne_nil _ _, lexeme_char_eq_none.mpr (.inl rfl), ?_⟩
      rw [diagnose_char, if_pos (List.head?_cons ..)]
      rfl
  | @character rest unclosed =>
      refine ⟨List.cons_ne_nil _ _, lexeme_char_eq_none.mpr (.inr unclosed), ?_⟩
      have filled : rest.head? ≠ some '\'' := by
        intro head
        obtain ⟨more, rfl⟩ := List.head?_eq_some_iff.mp head
        exact unclosed [] .nil ⟨more, rfl⟩
      rw [diagnose_char, if_neg filled]
      rfl
  | unexpected first nothing =>
      refine ⟨List.cons_ne_nil _ _, nothing.lexeme_eq, ?_⟩
      rw [nothing.diagnose_eq, first]
      rfl

theorem stuck_of_diagnosed {cs : List Char} (filled : cs ≠ []) (stuck : lexeme cs = none) :
    Stuck cs (diagnose cs).message := by
  cases block : opensBlockComment cs with
  | true =>
      obtain ⟨rest, rfl⟩ : ['/', '*'] <+: cs := by
        refine Decidable.not_not.mp (fun absent => ?_)
        rw [opensBlockComment_eq_false.mpr absent] at block
        contradiction
      have opened := (lexeme_eq_none.mp stuck).2.2.1
      simp only [List.cons_append, List.nil_append] at opened ⊢
      rw [blockCommentLength, Option.map_eq_none_iff, blockBody_eq_none] at opened
      rw [diagnose_comment]
      exact .comment opened
  | false =>
      -- a mark in front of a quote would be a word, so the quote itself is what no lexeme starts
      have wordless := ((lexeme_eq_none.mp stuck).2.2.2 block).2.2.2.1
      cases string : opening '"' cs with
      | some n =>
          obtain ⟨rest, rfl⟩ := quote_of_wordless (by decide) wordless string
          rw [diagnose_string]
          exact .string (lexeme_string_eq_none.mp stuck)
      | none =>
          cases char : opening '\'' cs with
          | some n =>
              obtain ⟨rest, rfl⟩ := quote_of_wordless (by decide) wordless char
              rw [diagnose_char]
              by_cases head : rest.head? = some '\''
              · rw [if_pos head]
                obtain ⟨more, rfl⟩ := List.head?_eq_some_iff.mp head
                exact .emptyCharacter
              · rw [if_neg head]
                exact .character ((lexeme_char_eq_none.mp stuck).resolve_left head)
          | none =>
              obtain ⟨c, rest, rfl⟩ := List.exists_cons_of_ne_nil filled
              have nothing := startsNothing_of_stuck stuck block string char
              obtain ⟨byte, more, first⟩ := List.exists_cons_of_ne_nil (utf8EncodeChar_ne_nil c)
              rw [nothing.diagnose_eq, first]
              exact .unexpected first nothing

/-- Where no lexeme starts, the diagnosis is right, and no other one is. -/
theorem stuck_iff {cs : List Char} {words : String} :
    Stuck cs words ↔ cs ≠ [] ∧ lexeme cs = none ∧ words = (diagnose cs).message := by
  constructor
  · exact fun stuck => stuck.diagnosed
  · intro ⟨filled, stuck, same⟩
    rw [same]
    exact stuck_of_diagnosed filled stuck

end TokenSearch.Lexer
