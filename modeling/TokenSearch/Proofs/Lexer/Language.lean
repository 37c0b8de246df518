import TokenSearch.Proofs.Lexer.Delimit

namespace TokenSearch.Lexer

/-! The languages of tokens, each given by its form alone, and the longest start of a text in each of
them. -/

/-- A letter or an underscore, and letters, digits and underscores behind it. -/
def IsWord (cs : List Char) : Prop :=
  ∃ c rest, isLetter c = true ∧ (∀ d ∈ rest, isWordChar d = true) ∧ cs = c :: rest

/-- What may stand in a number behind its first digit. A sign stands only behind an exponent mark. -/
inductive NumberTail : List Char → Prop
  | nil : NumberTail []
  | plain {c : Char} {rest : List Char} :
      isWordChar c = true ∨ c = '.' → NumberTail rest → NumberTail (c :: rest)
  | signed {c sign : Char} {rest : List Char} :
      c ∈ ['e', 'E', 'p', 'P'] → sign ∈ ['+', '-'] → NumberTail rest →
      NumberTail (c :: sign :: rest)

/-- A preprocessing number of C: a digit, a point before it or none, and a tail. -/
def IsNumber (cs : List Char) : Prop :=
  ∃ d rest, isDigit d = true ∧ NumberTail rest ∧ (cs = d :: rest ∨ cs = '.' :: d :: rest)

/-- What may stand between two quotes. A quote, a backslash and a line feed stand there only behind
a backslash; a line end of two characters stands behind one backslash as a whole. -/
inductive QuotedText (quote : Char) : List Char → Prop
  | nil : QuotedText quote []
  | plain {c : Char} {rest : List Char} :
      c ≠ quote → c ≠ '\\' → c ≠ '\n' → QuotedText quote rest → QuotedText quote (c :: rest)
  | escaped {c : Char} {rest : List Char} :
      QuotedText quote rest → QuotedText quote ('\\' :: c :: rest)
  | spliced {rest : List Char} :
      QuotedText quote rest → QuotedText quote ('\\' :: '\r' :: '\n' :: rest)

/-- A literal with `inner` between its quotes, and an encoding mark before them or none. -/
def IsQuoted (quote : Char) (inner cs : List Char) : Prop :=
  ∃ mark ∈ encodingMarks, QuotedText quote inner ∧ cs = mark ++ quote :: (inner ++ [quote])

def IsString (cs : List Char) : Prop :=
  ∃ inner, IsQuoted '"' inner cs

def IsCharacter (cs : List Char) : Prop :=
  ∃ inner, inner ≠ [] ∧ IsQuoted '\'' inner cs

/-- A name in angle brackets. -/
def IsBracketed (cs : List Char) : Prop :=
  ∃ name, name ≠ [] ∧ '>' ∉ name ∧ '\n' ∉ name ∧ cs = '<' :: (name ++ ['>'])

/-- The first `n` characters of a text are in a language, and no longer start of it is. -/
structure Longest (language : List Char → Prop) (cs : List Char) (n : Nat) : Prop where
  inside : language (cs.take n)
  greatest : ∀ other, other <+: cs → language other → other.length ≤ n

/-- Where a language tells how long its one start of a text is, that is its longest one. -/
theorem Longest.of_unique {language : List Char → Prop} {length : List Char → Option Nat}
    {cs : List Char} {n : Nat} (inside : language (cs.take n)) (found : length cs = some n)
    (unique : ∀ other, other <+: cs → language other → length cs = some other.length) :
    Longest language cs n := by
  refine ⟨inside, fun other starts member => ?_⟩
  have again := unique other starts member
  rw [found, Option.some.injEq] at again
  exact again.ge

theorem longest_word {cs : List Char} {n : Nat} (found : wordLength cs = some n) :
    Longest IsWord cs n := by
  obtain ⟨c, rest, rfl, letter, rfl⟩ := wordLength_eq_some.mp found
  constructor
  · refine ⟨c, rest.takeWhile isWordChar, letter, ?_, ?_⟩
    · intro d member
      exact List.mem_takeWhile_imp member
    · rw [List.take_succ_cons, ← List.prefix_iff_eq_take.mp (List.takeWhile_prefix isWordChar)]
  · rintro other starts ⟨d, more, _, each, rfl⟩
    obtain ⟨rfl, behind, rfl⟩ := List.cons_prefix_cons.mp starts
    rw [List.takeWhile_append_of_pos each, List.length_append, List.length_cons]
    omega

/-- An exponent mark and a sign, as a number's tail looks for them. -/
theorem signed_iff {c sign : Char} :
    ((c = 'e' || c = 'E' || c = 'p' || c = 'P') && (sign = '+' || sign = '-')) = true ↔
      c ∈ ['e', 'E', 'p', 'P'] ∧ sign ∈ ['+', '-'] := by
  simp [or_assoc]

theorem not_counted_of_sign {sign : Char} (isSign : sign ∈ ['+', '-']) :
    ¬ (isWordChar sign = true ∨ sign = '.') := by
  simp only [List.mem_cons, List.not_mem_nil, or_false] at isSign
  rcases isSign with rfl | rfl <;> decide

theorem isWordChar_of_mark {c : Char} (marked : c ∈ ['e', 'E', 'p', 'P']) :
    isWordChar c = true := by
  simp only [List.mem_cons, List.not_mem_nil, or_false] at marked
  rcases marked with rfl | rfl | rfl | rfl <;> decide

theorem numberTail_inside (cs : List Char) : NumberTail (cs.take (numberTail cs)) := by
  fun_induction numberTail cs with
  | case1 => exact .nil
  | case2 c counted => exact .plain (by simpa using counted) .nil
  | case3 => exact .nil
  | case4 c sign rest both ih =>
      obtain ⟨marked, isSign⟩ := signed_iff.mp both
      exact .signed marked isSign ih
  | case5 c sign rest _ counted ih => exact .plain (by simpa using counted) ih
  | case6 => exact .nil

/-- A character that a number does not go on with starts no tail. -/
theorem NumberTail.counted {c : Char} {rest : List Char} (tail : NumberTail (c :: rest)) :
    isWordChar c = true ∨ c = '.' := by
  cases tail with
  | plain counted _ => exact counted
  | signed marked _ _ => exact .inl (isWordChar_of_mark marked)

theorem numberTail_greatest {cs other : List Char} (tail : NumberTail other)
    (starts : other <+: cs) : other.length ≤ numberTail cs := by
  fun_induction numberTail cs generalizing other with
  | case1 => simp [List.prefix_nil.mp starts]
  | case2 c counted => exact starts.length_le
  | case3 c stopped =>
      cases tail with
      | nil => simp
      | plain counted _ =>
          obtain ⟨rfl, _⟩ := List.cons_prefix_cons.mp starts
          simp [counted] at stopped
      | signed => simpa using starts.length_le
  | case4 c sign rest both ih =>
      cases tail with
      | nil => simp
      | plain _ more =>
          -- the exponent mark alone would leave the sign to start a tail
          obtain ⟨rfl, later⟩ := List.cons_prefix_cons.mp starts
          cases more with
          | nil => simp
          | plain counted _ =>
              obtain ⟨rfl, _⟩ := List.cons_prefix_cons.mp later
              exact (not_counted_of_sign (signed_iff.mp both).2 counted).elim
          | signed marked _ _ =>
              obtain ⟨rfl, _⟩ := List.cons_prefix_cons.mp later
              exact (not_counted_of_sign (signed_iff.mp both).2
                (.inl (isWordChar_of_mark marked))).elim
      | signed _ _ more =>
          obtain ⟨_, later⟩ := List.cons_prefix_cons.mp starts
          obtain ⟨_, later⟩ := List.cons_prefix_cons.mp later
          simpa using ih more later
  | case5 c sign rest notBoth counted ih =>
      cases tail with
      | nil => simp
      | plain _ more => simpa using ih more (List.cons_prefix_cons.mp starts).2
      | signed marked isSign _ =>
          obtain ⟨rfl, later⟩ := List.cons_prefix_cons.mp starts
          obtain ⟨rfl, _⟩ := List.cons_prefix_cons.mp later
          exact (notBoth (signed_iff.mpr ⟨marked, isSign⟩)).elim
  | case6 c sign rest _ stopped =>
      cases other with
      | nil => simp
      | cons d more =>
          obtain ⟨rfl, _⟩ := List.cons_prefix_cons.mp starts
          simp [tail.counted] at stopped

theorem longest_number {cs : List Char} {n : Nat} (found : numberLength cs = some n) :
    Longest IsNumber cs n := by
  have apart {d : Char} (digit : isDigit d = true) : d ≠ '.' := by
    rintro rfl
    contradiction
  obtain ⟨d, rest, digit, ⟨rfl, rfl⟩ | ⟨rfl, rfl⟩⟩ := numberLength_eq_some.mp found
  · refine ⟨⟨d, _, digit, numberTail_inside rest, .inr rfl⟩, ?_⟩
    rintro other starts ⟨e, more, isFirst, tail, rfl | rfl⟩
    · exact (apart isFirst (List.cons_prefix_cons.mp starts).1).elim
    · obtain ⟨_, later⟩ := List.cons_prefix_cons.mp starts
      obtain ⟨_, later⟩ := List.cons_prefix_cons.mp later
      simpa using numberTail_greatest tail later
  · refine ⟨⟨d, _, digit, numberTail_inside rest, .inl rfl⟩, ?_⟩
    rintro other starts ⟨e, more, isFirst, tail, rfl | rfl⟩
    · simpa using numberTail_greatest tail (List.cons_prefix_cons.mp starts).2
    · exact (apart digit (List.cons_prefix_cons.mp starts).1.symm).elim

theorem quotedText_of_body {quote : Char} {cs : List Char} {n : Nat}
    (found : quotedBody quote cs = some n) :
    ∃ inner, QuotedText quote inner ∧ cs.take n = inner ++ [quote] ∧ inner.length + 1 = n := by
  fun_induction quotedBody quote cs generalizing n with
  | case1 => contradiction
  | case2 rest ih =>
      obtain ⟨k, later, rfl⟩ := Option.map_eq_some_iff.mp found
      obtain ⟨inner, text, front, rfl⟩ := ih later
      exact ⟨'\\' :: '\r' :: '\n' :: inner, .spliced text, by simp [front], by simp⟩
  | case3 c rest _ ih =>
      obtain ⟨k, later, rfl⟩ := Option.map_eq_some_iff.mp found
      obtain ⟨inner, text, front, rfl⟩ := ih later
      exact ⟨'\\' :: c :: inner, .escaped text, by simp [front], by simp⟩
  | case4 =>
      cases found
      exact ⟨[], .nil, by simp, rfl⟩
  | case5 => contradiction
  | case6 c rest _ _ notQuote plain ih =>
      obtain ⟨k, later, rfl⟩ := Option.map_eq_some_iff.mp found
      obtain ⟨inner, text, front, rfl⟩ := ih later
      have ordinary : ¬ (c = '\n' ∨ c = '\\') := by simpa using plain
      rw [not_or] at ordinary
      exact ⟨c :: inner, .plain notQuote ordinary.2 ordinary.1 text, by simp [front], by simp⟩

/-- What stands between two quotes does not start with a line feed, and neither does the second
quote. -/
theorem QuotedText.head {quote : Char} (noFeed : quote ≠ '\n') {inner : List Char}
    (text : QuotedText quote inner) (more rest : List Char) :
    inner ++ quote :: more ≠ '\n' :: rest := by
  cases text with
  | nil => simp [noFeed]
  | plain _ _ notFeed _ => simp [notFeed]
  | escaped _ => simp
  | spliced _ => simp

theorem body_of_quotedText {quote : Char} (noMark : quote ≠ '\\') (noFeed : quote ≠ '\n')
    {inner : List Char} (text : QuotedText quote inner) (more : List Char) :
    quotedBody quote (inner ++ quote :: more) = some (inner.length + 1) := by
  induction text with
  | nil => simp [quotedBody, noMark]
  | plain notQuote notMark notFeed _ ih => simp [quotedBody, notQuote, notMark, notFeed, ih]
  | @escaped c rest later ih =>
      rw [List.cons_append, List.cons_append, quotedBody, ih]
      · rfl
      · intro others _ same
        exact later.head noFeed more others same
  | spliced _ ih => simp [quotedBody, ih]

theorem isQuoted_of_lengths {quote : Char} (outside : isWordChar quote = false) {cs : List Char}
    {k m : Nat} (opened : opening quote cs = some k)
    (closed : quotedBody quote (cs.drop k) = some m) :
    ∃ inner, IsQuoted quote inner (cs.take (k + m)) ∧ inner.length + 1 = m := by
  obtain ⟨mark, member, ⟨behind, rfl⟩, rfl⟩ := (opening_eq_some outside).mp opened
  rw [List.drop_left' (by simp)] at closed
  obtain ⟨inner, text, front, size⟩ := quotedText_of_body closed
  refine ⟨inner, ⟨mark, member, text, ?_⟩, size⟩
  rw [List.take_add, List.take_left' (by simp), List.drop_left' (by simp), front]
  simp

theorem lengths_of_isQuoted {quote : Char} (outside : isWordChar quote = false)
    (noMark : quote ≠ '\\') (noFeed : quote ≠ '\n') {inner other cs : List Char}
    (quoted : IsQuoted quote inner other) (starts : other <+: cs) :
    ∃ k, opening quote cs = some k ∧ quotedBody quote (cs.drop k) = some (inner.length + 1) ∧
      k + (inner.length + 1) = other.length := by
  obtain ⟨mark, member, text, rfl⟩ := quoted
  obtain ⟨behind, rfl⟩ := starts
  have whole : mark ++ quote :: (inner ++ [quote]) ++ behind =
      mark ++ [quote] ++ (inner ++ quote :: behind) := by simp
  rw [whole]
  refine ⟨mark.length + 1, (opening_eq_some outside).mpr
    ⟨mark, member, List.prefix_append _ _, rfl⟩, ?_, by simp; omega⟩
  rw [List.drop_left' (by simp)]
  exact body_of_quotedText noMark noFeed text behind

theorem longest_string {cs : List Char} {n : Nat} (found : stringLength cs = some n) :
    Longest IsString cs n := by
  refine .of_unique ?_ found ?_
  · obtain ⟨k, m, opened, closed, rfl⟩ := stringLength_eq_some.mp found
    obtain ⟨inner, quoted, _⟩ := isQuoted_of_lengths (by decide) opened closed
    exact ⟨inner, quoted⟩
  · rintro other starts ⟨inner, quoted⟩
    obtain ⟨k, opened, closed, size⟩ :=
      lengths_of_isQuoted (by decide) (by decide) (by decide) quoted starts
    exact stringLength_eq_some.mpr ⟨k, _, opened, closed, size⟩

theorem longest_character {cs : List Char} {n : Nat} (found : charLength cs = some n) :
    Longest IsCharacter cs n := by
  refine .of_unique ?_ found ?_
  · obtain ⟨k, m, opened, closed, filled, rfl⟩ := charLength_eq_some.mp found
    obtain ⟨inner, quoted, rfl⟩ := isQuoted_of_lengths (by decide) opened closed
    exact ⟨inner, by rintro rfl; exact filled rfl, quoted⟩
  · rintro other starts ⟨inner, filled, quoted⟩
    obtain ⟨k, opened, closed, size⟩ :=
      lengths_of_isQuoted (by decide) (by decide) (by decide) quoted starts
    refine charLength_eq_some.mpr ⟨k, _, opened, closed, ?_, size⟩
    simpa using filled

theorem longest_bracketed {cs : List Char} {n : Nat} (found : headerLength cs = some n) :
    Longest IsBracketed cs n := by
  have inner {name : List Char} :
      (∀ c ∈ name, (c != '>' && c != '\n') = true) ↔ '>' ∉ name ∧ '\n' ∉ name := by
    simp only [Bool.and_eq_true, bne_iff_ne, ne_eq]
    grind
  refine .of_unique ?_ found ?_
  · obtain ⟨name, rest, rfl, filled, each, rfl⟩ := headerLength_eq_some.mp found
    refine ⟨name, filled, (inner.mp each).1, (inner.mp each).2, ?_⟩
    simp [List.take_append, List.take_of_length_le]
  · rintro other ⟨behind, rfl⟩ ⟨name, filled, noClose, noFeed, rfl⟩
    exact headerLength_eq_some.mpr
      ⟨name, behind, by simp, filled, inner.mpr ⟨noClose, noFeed⟩, by simp⟩

theorem longest_punctuator {cs : List Char} {n : Nat} (found : punctuatorLength cs = some n) :
    Longest (· ∈ punctuators) cs n := by
  have descending : punctuators.Pairwise (fun a b => b.length ≤ a.length) := by decide
  obtain ⟨mark, longer, shorter, all, starts, notLonger, rfl⟩ := punctuatorLength_eq_some.mp found
  rw [all, List.pairwise_append] at descending
  constructor
  · rw [← List.prefix_iff_eq_take.mp starts]
    simp [all]
  · intro other begins member
    simp only [all, List.mem_append, List.mem_cons] at member
    rcases member with before | rfl | behind
    · exact (notLonger other before begins).elim
    · exact Nat.le_refl _
    · exact (List.pairwise_cons.mp descending.2.1).1 other behind

end TokenSearch.Lexer
