import TokenSearch.Proofs.Lexer.Course

namespace TokenSearch.Lexer

/-! Text that is put behind a line end. What the lexer finds in front of the line end it finds
there again, whatever stands behind it. -/

theorem prefix_of_fed {word front rest : List Char} (plain : '\n' ∉ word) (fed : '\n' ∈ front)
    (starts : word <+: front ++ rest) : word <+: front := by
  rcases List.prefix_or_prefix_of_prefix starts (List.prefix_append front rest) with inside | beyond
  · exact inside
  · exact (plain (beyond.subset fed)).elim

section Reader

variable {reader : List Char → Option Nat}

/-- A reader that takes no line feed, and that sees all that it asks for in what it takes, does not
look beyond a line feed. -/
theorem read_append {cs : List Char} (fed : '\n' ∈ cs)
    (shape : ∀ {cs n}, reader cs = some n → n ≤ cs.length ∧ '\n' ∉ cs.take n)
    (cut : ∀ {cs n m}, reader cs = some n → n ≤ m → reader (cs.take m) = some n)
    (absent : ∀ {cs}, reader cs = none → ∀ m, reader (cs.take m) = none) (rest : List Char) :
    reader (cs ++ rest) = reader cs := by
  have front : (cs ++ rest).take cs.length = cs := List.take_left
  cases found : reader (cs ++ rest) with
  | none =>
      have again := absent found cs.length
      rw [front] at again
      exact again.symm
  | some n =>
      have inside : n ≤ cs.length := by
        by_contra beyond
        apply (shape found).2
        rw [List.take_append, List.take_of_length_le (by omega)]
        exact List.mem_append_left _ fed
      have again := cut found inside
      rw [front] at again
      exact again.symm

end Reader

variable {cs : List Char}

theorem numberLength_of_fed (fed : '\n' ∈ cs) (rest : List Char) :
    numberLength (cs ++ rest) = numberLength cs :=
  read_append fed numberLength_shape numberLength_take numberLength_take_eq_none rest

theorem wordLength_of_fed (fed : '\n' ∈ cs) (rest : List Char) :
    wordLength (cs ++ rest) = wordLength cs :=
  read_append fed wordLength_shape wordLength_take wordLength_take_eq_none rest

theorem punctuatorLength_take_eq_none (absent : punctuatorLength cs = none) (m : Nat) :
    punctuatorLength (cs.take m) = none := by
  simp only [punctuatorLength, Option.map_eq_none_iff, List.find?_eq_none,
    List.isPrefixOf_iff_prefix] at absent ⊢
  exact fun mark member starts => absent mark member (starts.trans (List.take_prefix m cs))

theorem punctuatorLength_of_fed (fed : '\n' ∈ cs) (rest : List Char) :
    punctuatorLength (cs ++ rest) = punctuatorLength cs :=
  read_append fed punctuatorLength_shape punctuatorLength_take punctuatorLength_take_eq_none rest

theorem headerLength_plain {n : Nat} (found : headerLength cs = some n) :
    n ≤ cs.length ∧ '\n' ∉ cs.take n := by
  obtain ⟨name, rest, rfl, _, inner, rfl⟩ := headerLength_eq_some.mp found
  have notInside : '\n' ∉ name := fun member => by simpa using inner _ member
  have front : ('<' :: (name ++ '>' :: rest)).take (name.length + 2) = '<' :: (name ++ ['>']) := by
    simp [List.take_append, List.take_of_length_le]
  refine ⟨by simp, ?_⟩
  rw [front]
  simp [notInside]

theorem headerLength_take {n m : Nat} (found : headerLength cs = some n) (enough : n ≤ m) :
    headerLength (cs.take m) = some n :=
  headerLength_of_start found (List.take_prefix_take_left enough)

theorem headerLength_take_eq_none (absent : headerLength cs = none) (m : Nat) :
    headerLength (cs.take m) = none := by
  rw [Option.eq_none_iff_forall_ne_some] at absent ⊢
  intro n found
  exact absent n (headerLength_of_start found ((List.take_prefix _ _).trans (List.take_prefix _ _)))

theorem headerLength_of_fed (fed : '\n' ∈ cs) (rest : List Char) :
    headerLength (cs ++ rest) = headerLength cs :=
  read_append fed headerLength_plain headerLength_take headerLength_take_eq_none rest

theorem opening_eq_none_of_fed {quote : Char} (outside : isWordChar quote = false)
    (notFeed : quote ≠ '\n') (fed : '\n' ∈ cs) (absent : opening quote cs = none)
    (rest : List Char) : opening quote (cs ++ rest) = none := by
  have plain : ∀ mark ∈ encodingMarks, '\n' ∉ mark := by decide
  rw [Option.eq_none_iff_forall_ne_some] at absent ⊢
  intro n found
  obtain ⟨mark, member, starts, rfl⟩ := (opening_eq_some outside).mp found
  refine absent _ ((opening_eq_some outside).mpr ⟨mark, member, prefix_of_fed ?_ fed starts, rfl⟩)
  simpa using ⟨plain mark member, notFeed.symm⟩

/-! Blanks and comments. -/

theorem spaceRun_append (cs rest : List Char) :
    spaceRun (cs.take (spaceRun cs) ++ rest) = spaceRun cs + spaceRun rest := by
  fun_induction spaceRun cs with
  | case1 more ih => simp [spaceRun, ih]; omega
  | case2 more ih => simp [spaceRun, ih]; omega
  | case3 c more _ _ space ih =>
      have other : c ≠ '\\' := by
        rintro rfl
        contradiction
      simp [spaceRun, other, space, ih]
      omega
  | case4 => simp
  | case5 => simp

theorem spaceRun_drop (cs : List Char) : spaceRun (cs.drop (spaceRun cs)) = 0 := by
  have whole := spaceRun_append cs (cs.drop (spaceRun cs))
  rw [List.take_append_drop] at whole
  omega

theorem spaceRun_of_stop (last : cs.getLast? = some '\n')
    (stops : spaceRun cs < cs.length) (rest : List Char) :
    spaceRun (cs ++ rest) = spaceRun cs := by
  have size : (cs.drop (spaceRun cs)).length ≠ 0 := by
    rw [List.length_drop]
    omega
  have filled : cs.drop (spaceRun cs) ≠ [] := fun empty => size (by rw [empty]; rfl)
  have feed : (cs.drop (spaceRun cs)).getLast? = some '\n' := by
    rw [List.getLast?_drop, if_neg (by omega), last]
  have ended : spaceRun (cs.drop (spaceRun cs) ++ rest) = 0 := by
    apply spaceRun_append_eq_zero filled (spaceRun_drop cs)
    · intro same
      simp [same] at feed
    · intro same
      simp [same] at feed
  have whole := spaceRun_append cs (cs.drop (spaceRun cs) ++ rest)
  rw [ended, ← List.append_assoc, List.take_append_drop] at whole
  exact whole

theorem lineBody_of_stop (stops : lineBody cs < cs.length) (rest : List Char) :
    lineBody (cs ++ rest) = lineBody cs := by
  fun_induction lineBody cs with
  | case1 => simp at stops
  | case2 more ih =>
      have later := ih (by simpa using stops)
      simp [lineBody, later]
  | case3 c more notCarried ih =>
      have later := ih (by simpa using stops)
      rw [List.cons_append, List.cons_append, lineBody, later]
      intro next isReturn same
      cases more with
      | nil => simp [lineBody] at stops
      | cons d more =>
          rw [List.cons_append] at same
          exact notCarried more isReturn (by rw [(List.cons.inj same).1])
  | case4 more => simp [lineBody]
  | case5 c more notCarried notTaken notEnd ih =>
      have later := ih (by simpa using stops)
      cases more with
      | nil => simp [lineBody] at stops
      | cons d more =>
          have other : c ≠ '\\' := fun mark => notTaken d more mark rfl
          rw [List.cons_append, lineBody, if_neg notEnd, later]
          · intro next isMark
            exact (other isMark).elim
          · intro first next isMark
            exact (other isMark).elim

theorem blockBody_of_found {n : Nat} (found : blockBody cs = some n) (rest : List Char) :
    blockBody (cs ++ rest) = some n := by
  fun_induction blockBody cs generalizing n with
  | case1 => contradiction
  | case2 more =>
      cases found
      simp [blockBody]
  | case3 c more notClosing ih =>
      obtain ⟨k, later, rfl⟩ := Option.map_eq_some_iff.mp found
      rw [List.cons_append, blockBody, ih later]
      · rfl
      · intro next isStar same
        cases more with
        | nil => contradiction
        | cons d more =>
            rw [List.cons_append] at same
            exact notClosing more isStar (by rw [(List.cons.inj same).1])

/-! Literals. One that nothing closes would be closed by what comes later, but it fails the scan
first. -/

theorem opening_marked {quote : Char} (outside : isWordChar quote = false) {mark : List Char}
    (member : mark ∈ encodingMarks) (more : List Char) :
    opening quote (mark ++ quote :: more) = some (mark.length + 1) :=
  (opening_eq_some outside).mpr ⟨mark, member, ⟨more, by simp⟩, rfl⟩

theorem quote_of_opening {quote first : Char} (outside : isWordChar quote = false)
    (solid : isWordChar first = false) {more : List Char} {n : Nat}
    (found : opening quote (first :: more) = some n) : quote = first ∧ n = 1 := by
  have letters : ∀ mark ∈ encodingMarks, mark.all isWordChar = true := by decide
  obtain ⟨mark, member, starts, rfl⟩ := (opening_eq_some outside).mp found
  cases mark with
  | nil => exact ⟨(List.cons_prefix_cons.mp starts).1, rfl⟩
  | cons c mark =>
      have letter := letters _ member
      rw [(List.cons_prefix_cons.mp starts).1, List.all_cons, solid] at letter
      contradiction

theorem unclosed_of_marked {quote : Char} (outside : isWordChar quote = false) {mark : List Char}
    (member : mark ∈ encodingMarks) {more : List Char}
    (string : stringLength (mark ++ quote :: more) = none)
    (char : charLength (mark ++ quote :: more) = none) :
    stringLength (quote :: more) = none ∧ charLength (quote :: more) = none := by
  have behind : (mark ++ quote :: more).drop (mark.length + 1) = more := by
    rw [← List.drop_drop, List.drop_left]
    rfl
  have opened := opening_marked outside member more
  constructor
  · rw [Option.eq_none_iff_forall_ne_some]
    intro n found
    obtain ⟨k, m, started, closed, _⟩ := stringLength_eq_some.mp found
    obtain ⟨rfl, rfl⟩ := quote_of_opening (by decide) outside started
    have marked := stringLength_eq_some.mpr ⟨_, m, opened, by rwa [behind], rfl⟩
    rw [string] at marked
    contradiction
  · rw [Option.eq_none_iff_forall_ne_some]
    intro n found
    obtain ⟨k, m, started, closed, filled, _⟩ := charLength_eq_some.mp found
    obtain ⟨rfl, rfl⟩ := quote_of_opening (by decide) outside started
    have marked := charLength_eq_some.mpr ⟨_, m, opened, by rwa [behind], filled, rfl⟩
    rw [char] at marked
    contradiction

theorem punctuatorLength_quote {quote : Char} (isQuote : quote = '"' ∨ quote = '\'')
    (more : List Char) : punctuatorLength (quote :: more) = none := by
  have apart : ∀ mark ∈ punctuators, mark ≠ [] ∧ mark.head? ≠ some '"' ∧ mark.head? ≠ some '\'' := by
    decide
  rw [Option.eq_none_iff_forall_ne_some]
  intro n found
  obtain ⟨mark, longer, shorter, all, starts, _⟩ := punctuatorLength_eq_some.mp found
  obtain ⟨filled, notString, notChar⟩ := apart mark (by simp [all])
  cases mark with
  | nil => contradiction
  | cons c mark =>
      rw [(List.cons_prefix_cons.mp starts).1] at notString notChar
      rcases isQuote with rfl | rfl
      · exact notString rfl
      · exact notChar rfl

/-- No lexeme starts at a quote that opens a literal which nothing closes. -/
theorem lexeme_of_unclosed {quote : Char} (isQuote : quote = '"' ∨ quote = '\'') {more : List Char}
    (string : stringLength (quote :: more) = none) (char : charLength (quote :: more) = none) :
    lexeme (quote :: more) = none := by
  have mark := punctuatorLength_quote isQuote more
  rcases isQuote with rfl | rfl <;>
    simp [lexeme, spaceLength, spaceRun, isSpace, lineCommentLength, blockCommentLength,
      opensBlockComment, string, char, numberLength, isDigit, wordLength, isLetter, mark]

theorem lexeme_of_marked {quote : Char} (isQuote : quote = '"' ∨ quote = '\'') {mark : List Char}
    (member : mark ∈ encodingMarks) (filled : mark ≠ []) {more : List Char}
    (string : stringLength (mark ++ quote :: more) = none)
    (char : charLength (mark ++ quote :: more) = none) :
    lexeme (mark ++ quote :: more) = some (.word, mark.length) := by
  have ended : isWordChar quote = false := by
    rcases isQuote with rfl | rfl <;> decide
  have digit : isWordChar '8' = true := by decide
  simp only [encodingMarks, List.mem_cons, List.not_mem_nil, or_false] at member
  rcases member with rfl | rfl | rfl | rfl | rfl
  · contradiction
  all_goals
    simp only [List.cons_append, List.nil_append] at string char ⊢
    simp [lexeme, spaceLength, spaceRun, isSpace, lineCommentLength, blockCommentLength,
      opensBlockComment, string, char, numberLength, isDigit, wordLength, isLetter, ended, digit]

/-- A scan that does not fail has no literal in front of it that stays open. -/
theorem opening_eq_none_of_complete {s : Stand} {tokens : List Token} {kind : LexemeKind} {n : Nat}
    (complete : s.run = ⟨tokens, none⟩) (found : lexeme s.rest = some (kind, n))
    (string : stringLength s.rest = none) (char : charLength s.rest = none) {quote : Char}
    (isQuote : quote = '"' ∨ quote = '\'') : opening quote s.rest = none := by
  have outside : isWordChar quote = false := by
    rcases isQuote with rfl | rfl <;> decide
  have noBracket : ∀ mark ∈ encodingMarks, mark.head? ≠ some '<' := by decide
  have other : quote ≠ '<' := by
    rcases isQuote with rfl | rfl <;> decide
  rw [Option.eq_none_iff_forall_ne_some]
  intro k opened
  obtain ⟨mark, member, ⟨more, whole⟩, _⟩ := (opening_eq_some outside).mp opened
  rw [List.append_assoc, List.singleton_append] at whole
  rw [← whole] at string char found
  obtain ⟨stringOpen, charOpen⟩ := unclosed_of_marked outside member string char
  have stuck := lexeme_of_unclosed isQuote stringOpen charOpen
  cases mark with
  | nil => simp [stuck] at found
  | cons c mark =>
      -- the mark is read as a word, and the scan fails at the quote behind it
      have word := lexeme_of_marked isQuote member (by simp) string char
      have head : c ≠ '<' := by simpa using noBracket _ member
      have next : s.next = some (.word, mark.length + 1) := by
        rw [Stand.next, ← whole, nextLexeme, if_neg (by simp [head]), word]
        rfl
      have behind : (s.past .word (mark.length + 1)).rest = quote :: more := by
        rw [Stand.rest_past, ← whole]
        exact List.drop_left' rfl
      have failed : (s.past .word (mark.length + 1)).next = none := by
        rw [Stand.next, behind, nextLexeme, if_neg (by simp [other]), stuck]
      rw [Stand.run_past next] at complete
      rcases (s.past .word (mark.length + 1)).run_cases with ⟨ended, _⟩ | ⟨_, _, again⟩ | ⟨_, _, refused⟩
      · rw [behind] at ended
        contradiction
      · simp [failed] at again
      · simp [complete] at refused

/-- What starts a text is found again in a longer one, if a line feed ends the text behind it and no
literal in front of it stays open. -/
theorem lexeme_of_fed {kind : LexemeKind} {n : Nat} (found : lexeme cs = some (kind, n))
    (last : cs.getLast? = some '\n') (short : n < cs.length)
    (closed : stringLength cs = none → charLength cs = none →
      opening '"' cs = none ∧ opening '\'' cs = none) (rest : List Char) :
    lexeme (cs ++ rest) = some (kind, n) := by
  have fed : '\n' ∈ cs := List.mem_of_getLast? last
  have blank (absent : spaceLength cs = none) : spaceLength (cs ++ rest) = none := by
    rw [spaceLength_eq_none] at absent ⊢
    rw [spaceRun_of_stop last (by omega), absent]
  have line (absent : lineCommentLength cs = none) : lineCommentLength (cs ++ rest) = none := by
    rw [lineCommentLength_eq_none] at absent ⊢
    exact fun starts => absent (prefix_of_fed (by decide) fed starts)
  have block (absent : opensBlockComment cs = false) : opensBlockComment (cs ++ rest) = false := by
    rw [opensBlockComment_eq_false] at absent ⊢
    exact fun starts => absent (prefix_of_fed (by decide) fed starts)
  have string (absent : opening '"' cs = none) : stringLength (cs ++ rest) = none := by
    simp [stringLength, opening_eq_none_of_fed (by decide) (by decide) fed absent rest]
  have char (absent : opening '\'' cs = none) : charLength (cs ++ rest) = none := by
    simp [charLength, opening_eq_none_of_fed (by decide) (by decide) fed absent rest]
  have inside : cs.take n <+: cs ++ rest := (List.take_prefix n cs).trans (List.prefix_append cs rest)
  apply Opens.lexeme_eq
  cases lexeme_opens found with
  | space counted =>
      obtain ⟨rfl, positive⟩ := spaceLength_eq_some counted
      refine .space ?_
      obtain ⟨k, size⟩ := Nat.exists_eq_add_of_le' positive
      rw [spaceLength, spaceRun_of_stop last short, size]
  | lineComment noSpace counted =>
      refine .lineComment (blank noSpace) ?_
      obtain ⟨more, rfl, rfl⟩ := lineComment_eq counted
      simp only [List.length_cons, Nat.add_lt_add_iff_right] at short
      simp [lineCommentLength, lineBody_of_stop short]
  | blockComment noSpace noLine counted =>
      refine .blockComment (blank noSpace) (line noLine) ?_
      obtain ⟨more, k, rfl, body, rfl⟩ := blockComment_eq counted
      simp [blockCommentLength, blockBody_of_found body]
  | string noSpace noLine noBlock counted =>
      exact .string (blank noSpace) (line noLine) (block noBlock)
        (stringLength_of_start counted inside)
  | char noSpace noLine noBlock noString counted =>
      refine .char (blank noSpace) (line noLine) (block noBlock) (string ?_)
        (charLength_of_start counted inside)
      obtain ⟨_, _, opened, _⟩ := charLength_eq_some.mp counted
      exact opening_unique opened
  | number noSpace noLine noBlock noString noChar counted =>
      obtain ⟨first, second⟩ := closed noString noChar
      exact .number (blank noSpace) (line noLine) (block noBlock) (string first) (char second)
        (by rw [numberLength_of_fed fed, counted])
  | word noSpace noLine noBlock noString noChar noNumber counted =>
      obtain ⟨first, second⟩ := closed noString noChar
      exact .word (blank noSpace) (line noLine) (block noBlock) (string first) (char second)
        (by rw [numberLength_of_fed fed, noNumber]) (by rw [wordLength_of_fed fed, counted])
  | punctuator noSpace noLine noBlock noString noChar noNumber noWord counted =>
      obtain ⟨first, second⟩ := closed noString noChar
      exact .punctuator (blank noSpace) (line noLine) (block noBlock) (string first) (char second)
        (by rw [numberLength_of_fed fed, noNumber]) (by rw [wordLength_of_fed fed, noWord])
        (by rw [punctuatorLength_of_fed fed, counted])

namespace Stand

/-- The stand `s` with more text behind the text in front of it. -/
def followedBy (s : Stand) (more : List Char) : Stand := { s with rest := s.rest ++ more }

variable {s t : Stand} {tokens : List Token} {kind : LexemeKind} {n : Nat}

theorem past_followedBy (more : List Char) (bound : n ≤ s.rest.length) :
    (s.followedBy more).past kind n = (s.past kind n).followedBy more := by
  simp only [past, followedBy, List.take_append_of_le_length bound,
    List.drop_append_of_le_length bound]

theorem next_followedBy (complete : s.run = ⟨tokens, none⟩) (found : s.next = some (kind, n))
    (last : s.rest.getLast? = some '\n') (short : n < s.rest.length) (more : List Char) :
    (s.followedBy more).next = some (kind, n) := by
  have fed : '\n' ∈ s.rest := List.mem_of_getLast? last
  have head : (s.rest ++ more).head? = s.rest.head? :=
    List.head?_append_of_ne_nil _ (List.ne_nil_of_mem fed)
  have plain (found : lexeme s.rest = some (kind, n)) :
      lexeme (s.rest ++ more) = some (kind, n) := by
    apply lexeme_of_fed found last short
    intro string char
    exact ⟨opening_eq_none_of_complete complete found string char (.inl rfl),
      opening_eq_none_of_complete complete found string char (.inr rfl)⟩
  simp only [next, nextLexeme, followedBy, head, headerLength_of_fed fed] at found ⊢
  split at found
  · rename_i expected
    rw [if_pos expected]
    cases header : headerLength s.rest with
    | none =>
        rw [header] at found
        exact plain found
    | some m =>
        rw [header] at found
        exact found
  · rename_i unexpected
    rw [if_neg unexpected]
    exact plain found

/-- The way of a scan to a text that ends with a line feed does not depend on what stands behind
that text. -/
theorem Leads.followedBy (leads : s.Leads t) (complete : s.run = ⟨tokens, none⟩)
    (last : t.rest.getLast? = some '\n') (more : List Char) :
    (s.followedBy more).Leads (t.followedBy more) := by
  induction leads with
  | refl s => exact .refl _
  | @step s t kind n found later ih =>
      obtain ⟨piece, whole, _⟩ := later.passed
      have bound := nextLexeme_le found
      have short : n + 1 < s.rest.length := by
        have filled : t.rest ≠ [] := by
          intro empty
          simp [empty] at last
        have size := congrArg List.length whole
        rw [rest_past, List.length_drop, List.length_append] at size
        have positive := List.length_pos_iff.mpr filled
        omega
      have ending : s.rest.getLast? = some '\n' := by
        rw [← List.take_append_drop (n + 1) s.rest, ← rest_past s kind, whole, List.getLast?_append,
          List.getLast?_append, last]
        rfl
      refine .step (next_followedBy complete found ending short more) ?_
      rw [past_followedBy more bound]
      exact ih ((run_past found).symm.trans complete) last

end Stand

end TokenSearch.Lexer
