import Mathlib.Data.List.Basic
import Mathlib.Data.List.TakeWhile
import TokenSearch.Proofs.Lexer.Lexeme

namespace TokenSearch.Lexer

/-! A lexeme that gives a token ends where it ends by itself. It is found when the text is cut off
behind it, and it is found again in front of any text that starts with a blank. -/

/-- No text, or one that a blank starts. -/
def Parted (rest : List Char) : Prop :=
  ∀ c ∈ rest.head?, isSpace c = true

namespace Parted

variable {front rest word : List Char}

theorem nil : Parted [] := by simp [Parted]

theorem cons {c : Char} (space : isSpace c = true) (more : List Char) : Parted (c :: more) := by
  simpa [Parted] using space

theorem head (parted : Parted rest) {c : Char} {more : List Char} (same : rest = c :: more) :
    isSpace c = true := parted c (by simp [same])

/-- A word without blanks that starts a text does not reach over a blank in it. -/
theorem of_prefix_append (parted : Parted rest) (plain : word.any isSpace = false)
    (starts : word <+: front ++ rest) : word <+: front := by
  induction word generalizing front with
  | nil => exact List.nil_prefix
  | cons c word ih =>
      obtain ⟨solid, others⟩ := Bool.or_eq_false_iff.mp plain
      cases front with
      | nil =>
          obtain ⟨behind, same⟩ := starts
          have space := parted.head same.symm
          rw [solid] at space
          contradiction
      | cons first front =>
          obtain ⟨rfl, later⟩ := List.cons_prefix_cons.mp starts
          exact List.cons_prefix_cons.mpr ⟨rfl, ih others later⟩

end Parted

theorem lineCommentLength_eq_none {cs : List Char} :
    lineCommentLength cs = none ↔ ¬ ['/', '/'] <+: cs := by
  constructor
  · rintro absent ⟨rest, rfl⟩
    simp [lineCommentLength] at absent
  · intro absent
    cases found : lineCommentLength cs with
    | none => rfl
    | some n =>
        obtain ⟨rest, rfl, _⟩ := lineComment_eq found
        exact (absent ⟨rest, rfl⟩).elim

theorem opensBlockComment_eq_false {cs : List Char} :
    opensBlockComment cs = false ↔ ¬ ['/', '*'] <+: cs := by
  constructor
  · rintro absent ⟨rest, rfl⟩
    simp [opensBlockComment] at absent
  · intro absent
    unfold opensBlockComment
    split
    · rename_i rest
      exact (absent ⟨rest, rfl⟩).elim
    · rfl

/-! Literals and header names: what closes them is their own last character. -/

/-- What may stand in front of an opening quote. -/
def encodingMarks : List (List Char) := [[], ['u'], ['U'], ['L'], ['u', '8']]

theorem opening_eq_some {quote : Char} (outside : isWordChar quote = false) {cs : List Char}
    {n : Nat} : opening quote cs = some n ↔
      ∃ mark ∈ encodingMarks, mark ++ [quote] <+: cs ∧ n = mark.length + 1 := by
  have other {c : Char} (inside : isWordChar c = true) : c ≠ quote := by
    rintro rfl
    simp [outside] at inside
  have atU : 'u' ≠ quote := other (by decide)
  have atCapital : 'U' ≠ quote := other (by decide)
  have atL : 'L' ≠ quote := other (by decide)
  have atEight : '8' ≠ quote := other (by decide)
  constructor
  · intro found
    unfold opening at found
    simp only [encodingMarks, List.exists_mem_cons_iff, List.nil_append, List.cons_append,
      List.length_nil, List.length_cons, List.not_mem_nil, false_and, exists_false, or_false]
    grind
  · rintro ⟨mark, member, ⟨behind, rfl⟩, rfl⟩
    simp only [encodingMarks, List.mem_cons, List.not_mem_nil, or_false] at member
    rcases member with rfl | rfl | rfl | rfl | rfl
    · rcases behind with _ | ⟨a, _ | ⟨b, rest⟩⟩ <;> simp [opening]
    · cases behind <;> simp [opening, atU]
    · cases behind <;> simp [opening, atCapital]
    · cases behind <;> simp [opening, atL]
    · simp [opening, atU, atEight]

theorem opening_head {quote : Char} (outside : isWordChar quote = false) {cs : List Char} {n : Nat}
    (found : opening quote cs = some n) :
    ∃ c, cs.head? = some c ∧ (c = quote ∨ c ∈ ['u', 'U', 'L']) := by
  obtain ⟨mark, member, ⟨behind, rfl⟩, _⟩ := (opening_eq_some outside).mp found
  simp only [encodingMarks, List.mem_cons, List.not_mem_nil, or_false] at member
  rcases member with rfl | rfl | rfl | rfl | rfl <;> simp

theorem opening_of_start {quote : Char} (outside : isWordChar quote = false) {cs other : List Char}
    {n : Nat} (found : opening quote cs = some n) (starts : cs.take n <+: other) :
    opening quote other = some n := by
  obtain ⟨mark, member, ⟨behind, rfl⟩, rfl⟩ := (opening_eq_some outside).mp found
  rw [List.take_left' (by simp)] at starts
  exact (opening_eq_some outside).mpr ⟨mark, member, starts, rfl⟩

theorem quotedBody_of_start {quote : Char} (noMark : quote ≠ '\\') {cs other : List Char} {n : Nat}
    (found : quotedBody quote cs = some n) (starts : cs.take n <+: other) :
    quotedBody quote other = some n := by
  fun_induction quotedBody quote cs generalizing n other with
  | case1 => contradiction
  | case2 rest ih =>
      obtain ⟨k, later, rfl⟩ := Option.map_eq_some_iff.mp found
      obtain ⟨behind, rfl⟩ := starts
      simp [quotedBody, ih later (List.prefix_append _ behind)]
  | case3 c rest notCarried ih =>
      obtain ⟨k, later, rfl⟩ := Option.map_eq_some_iff.mp found
      obtain ⟨behind, rfl⟩ := starts
      obtain ⟨k, rfl⟩ := Nat.exists_eq_add_of_le' (quotedBody_shape later).1
      cases rest with
      | nil => contradiction
      | cons d rest =>
          have again := ih later (List.prefix_append _ behind)
          rw [List.take_succ_cons, List.take_succ_cons, List.cons_append, List.cons_append,
            quotedBody, again]
          · rfl
          · intro more isReturn same
            rw [List.take_succ_cons, List.cons_append] at same
            exact notCarried rest isReturn (by rw [(List.cons.inj same).1])
  | case4 rest =>
      cases found
      obtain ⟨behind, rfl⟩ := starts
      simp [quotedBody, noMark]
  | case5 => contradiction
  | case6 c rest notCarried notTaken notQuote plain ih =>
      obtain ⟨k, later, rfl⟩ := Option.map_eq_some_iff.mp found
      obtain ⟨behind, rfl⟩ := starts
      have other : c ≠ '\\' := by
        rintro rfl
        simp at plain
      have later' := ih later (List.prefix_append _ behind)
      simp_all [quotedBody]

/-- A literal is found in every text that its characters start. -/
theorem quoted_of_start {quote : Char} (outside : isWordChar quote = false)
    (noMark : quote ≠ '\\') {cs other : List Char} {k m : Nat} (opened : opening quote cs = some k)
    (closed : quotedBody quote (cs.drop k) = some m) (starts : cs.take (k + m) <+: other) :
    opening quote other = some k ∧ quotedBody quote (other.drop k) = some m := by
  have first := opening_le opened
  obtain ⟨behind, rfl⟩ := starts
  have size : (cs.take k).length = k := List.length_take_of_le first
  rw [List.take_add, List.append_assoc]
  refine ⟨opening_of_start outside opened (List.prefix_append _ _), ?_⟩
  rw [List.drop_left' size]
  exact quotedBody_of_start noMark closed (List.prefix_append _ _)

theorem stringLength_of_start {cs other : List Char} {n : Nat} (found : stringLength cs = some n)
    (starts : cs.take n <+: other) : stringLength other = some n := by
  obtain ⟨k, m, opened, closed, rfl⟩ := stringLength_eq_some.mp found
  obtain ⟨opens, closes⟩ := quoted_of_start (by decide) (by decide) opened closed starts
  exact stringLength_eq_some.mpr ⟨k, m, opens, closes, rfl⟩

theorem charLength_of_start {cs other : List Char} {n : Nat} (found : charLength cs = some n)
    (starts : cs.take n <+: other) : charLength other = some n := by
  obtain ⟨k, m, opened, closed, filled, rfl⟩ := charLength_eq_some.mp found
  obtain ⟨opens, closes⟩ := quoted_of_start (by decide) (by decide) opened closed starts
  exact charLength_eq_some.mpr ⟨k, m, opens, closes, filled, rfl⟩

theorem headerLength_of_start {cs other : List Char} {n : Nat} (found : headerLength cs = some n)
    (starts : cs.take n <+: other) : headerLength other = some n := by
  obtain ⟨name, rest, rfl, filled, inner, rfl⟩ := headerLength_eq_some.mp found
  obtain ⟨behind, rfl⟩ := starts
  refine headerLength_eq_some.mpr ⟨name, behind, ?_, filled, inner, rfl⟩
  simp [List.take_append, List.take_of_length_le]

theorem isSpace_of_wordChar {c : Char} (counted : isWordChar c = true) : isSpace c = false := by
  by_contra space
  rw [Bool.not_eq_false] at space
  simp only [isSpace, Bool.or_eq_true, decide_eq_true_eq] at space
  rcases space with ((((rfl | rfl) | rfl) | rfl) | rfl) | rfl <;> contradiction

theorem isWordChar_of_digit {c : Char} (digit : isDigit c = true) : isWordChar c = true := by
  simp [isWordChar, digit]

/-! Numbers, words and punctuators: they run as far as they can, so a blank ends them. -/

theorem numberTail_take {cs : List Char} {m : Nat} (enough : numberTail cs ≤ m) :
    numberTail (cs.take m) = numberTail cs := by
  fun_induction numberTail cs generalizing m with
  | case1 => simp [numberTail]
  | case2 c counted =>
      obtain ⟨k, rfl⟩ := Nat.exists_eq_add_of_le' enough
      simp [numberTail, counted]
  | case3 c other =>
      cases m <;> simp [numberTail, other]
  | case4 c sign rest marked ih =>
      obtain ⟨k, rfl⟩ := Nat.exists_eq_add_of_le' (show 2 ≤ m by omega)
      simp [numberTail, marked, ih (show numberTail rest ≤ k by omega)]
  | case5 c sign rest notMarked counted ih =>
      obtain ⟨k, rfl⟩ := Nat.exists_eq_add_of_le' (show 1 ≤ m by omega)
      have later := ih (show numberTail (sign :: rest) ≤ k by omega)
      cases k with
      | zero =>
          have none_ : numberTail (sign :: rest) = 0 := by simpa [numberTail] using later.symm
          simp [numberTail, counted, none_]
      | succ k =>
          rw [List.take_succ_cons] at later
          simp [numberTail, notMarked, counted, later]
  | case6 c sign rest notMarked other =>
      rcases m with _ | _ | m <;> simp [numberTail, notMarked, other]

theorem Parted.numberTail_eq {rest : List Char} (parted : Parted rest) : numberTail rest = 0 := by
  cases rest with
  | nil => rfl
  | cons c more =>
      have space := parted.head rfl
      simp only [isSpace, Bool.or_eq_true, decide_eq_true_eq] at space
      rcases space with ((((rfl | rfl) | rfl) | rfl) | rfl) | rfl <;> cases more <;> rfl

theorem numberTail_append {front rest : List Char} (whole : numberTail front = front.length)
    (parted : Parted rest) : numberTail (front ++ rest) = front.length := by
  fun_induction numberTail front with
  | case1 => exact parted.numberTail_eq
  | case2 c counted =>
      have none_ := parted.numberTail_eq
      cases rest with
      | nil => simp [numberTail, counted]
      | cons d rest =>
          have unsigned : (d = '+' || d = '-') = false := by
            by_contra sign
            rw [Bool.not_eq_false, Bool.or_eq_true, decide_eq_true_eq, decide_eq_true_eq] at sign
            have space := parted.head rfl
            rcases sign with rfl | rfl <;> contradiction
          simp [numberTail, counted, unsigned, none_]
  | case3 => simp at whole
  | case4 c sign rest marked ih =>
      simp only [List.length_cons, Nat.add_right_cancel_iff] at whole
      simp [numberTail, marked, ih whole]
  | case5 c sign rest notMarked counted ih =>
      simp only [List.length_cons, Nat.add_right_cancel_iff] at whole
      simp_all [numberTail]
  | case6 => simp at whole

theorem numberLength_eq_some {cs : List Char} {n : Nat} :
    numberLength cs = some n ↔ ∃ d rest, isDigit d = true ∧
      (cs = '.' :: d :: rest ∧ numberTail rest + 2 = n ∨ cs = d :: rest ∧ numberTail rest + 1 = n) := by
  constructor
  · intro found
    unfold numberLength at found
    split at found
    · rename_i d rest
      split at found
      · exact ⟨d, rest, ‹_›, .inl ⟨rfl, Option.some.inj found⟩⟩
      · contradiction
    · rename_i d rest _
      split at found
      · exact ⟨d, rest, ‹_›, .inr ⟨rfl, Option.some.inj found⟩⟩
      · contradiction
    · contradiction
  · rintro ⟨d, rest, digit, ⟨rfl, rfl⟩ | ⟨rfl, rfl⟩⟩
    · simp [numberLength, digit]
    · have other : d ≠ '.' := by
        rintro rfl
        contradiction
      simp [numberLength, other, digit]

theorem numberLength_take {cs : List Char} {n m : Nat} (found : numberLength cs = some n)
    (enough : n ≤ m) : numberLength (cs.take m) = some n := by
  obtain ⟨d, rest, digit, ⟨rfl, rfl⟩ | ⟨rfl, rfl⟩⟩ := numberLength_eq_some.mp found
  · obtain ⟨k, rfl⟩ := Nat.exists_eq_add_of_le' (show 2 ≤ m by omega)
    have tail := numberTail_take (show numberTail rest ≤ k by omega)
    exact numberLength_eq_some.mpr ⟨d, rest.take k, digit, .inl ⟨rfl, by rw [tail]⟩⟩
  · obtain ⟨k, rfl⟩ := Nat.exists_eq_add_of_le' (show 1 ≤ m by omega)
    have tail := numberTail_take (show numberTail rest ≤ k by omega)
    exact numberLength_eq_some.mpr ⟨d, rest.take k, digit, .inr ⟨rfl, by rw [tail]⟩⟩

theorem numberLength_append {front rest : List Char}
    (whole : numberLength front = some front.length) (parted : Parted rest) :
    numberLength (front ++ rest) = some front.length := by
  obtain ⟨d, more, digit, ⟨rfl, size⟩ | ⟨rfl, size⟩⟩ := numberLength_eq_some.mp whole
  · have tail := numberTail_append (show numberTail more = more.length by simpa using size) parted
    exact numberLength_eq_some.mpr ⟨d, more ++ rest, digit, .inl ⟨rfl, by rw [tail]; rfl⟩⟩
  · have tail := numberTail_append (show numberTail more = more.length by simpa using size) parted
    exact numberLength_eq_some.mpr ⟨d, more ++ rest, digit, .inr ⟨rfl, by rw [tail]; rfl⟩⟩

/-- Whether a number starts a text is seen from its first two characters. -/
theorem numberLength_take_eq_none {cs : List Char} (absent : numberLength cs = none) (m : Nat) :
    numberLength (cs.take m) = none := by
  rw [Option.eq_none_iff_forall_ne_some] at absent ⊢
  intro n found
  obtain ⟨d, rest, digit, ⟨front, _⟩ | ⟨front, _⟩⟩ := numberLength_eq_some.mp found
  · exact absent _ (numberLength_eq_some.mpr ⟨d, _, digit, .inl ⟨eq_append_drop front, rfl⟩⟩)
  · exact absent _ (numberLength_eq_some.mpr ⟨d, _, digit, .inr ⟨eq_append_drop front, rfl⟩⟩)

theorem numberLength_append_eq_none {front rest : List Char}
    (absent : numberLength front = none) (parted : Parted rest) :
    numberLength (front ++ rest) = none := by
  rw [Option.eq_none_iff_forall_ne_some] at absent ⊢
  intro n found
  obtain ⟨d, more, digit, ⟨whole, _⟩ | ⟨whole, _⟩⟩ := numberLength_eq_some.mp found
  · have plain : ['.', d].any isSpace = false := by
      simpa using ⟨by decide, isSpace_of_wordChar (isWordChar_of_digit digit)⟩
    obtain ⟨back, rfl⟩ := parted.of_prefix_append plain ⟨more, whole.symm⟩
    exact absent _ (numberLength_eq_some.mpr ⟨d, back, digit, .inl ⟨rfl, rfl⟩⟩)
  · have plain : [d].any isSpace = false := by
      simpa using isSpace_of_wordChar (isWordChar_of_digit digit)
    obtain ⟨back, rfl⟩ := parted.of_prefix_append plain ⟨more, whole.symm⟩
    exact absent _ (numberLength_eq_some.mpr ⟨d, back, digit, .inr ⟨rfl, rfl⟩⟩)

theorem wordLength_eq_some {cs : List Char} {n : Nat} :
    wordLength cs = some n ↔ ∃ c rest, cs = c :: rest ∧ isLetter c = true ∧
      (rest.takeWhile isWordChar).length + 1 = n := by
  cases cs with
  | nil => simp [wordLength]
  | cons c rest => simp [wordLength]

theorem wordLength_take {cs : List Char} {n m : Nat} (found : wordLength cs = some n)
    (enough : n ≤ m) : wordLength (cs.take m) = some n := by
  obtain ⟨c, rest, rfl, letter, rfl⟩ := wordLength_eq_some.mp found
  obtain ⟨k, rfl⟩ := Nat.exists_eq_add_of_le' (show 1 ≤ m by omega)
  refine wordLength_eq_some.mpr ⟨c, rest.take k, rfl, letter, ?_⟩
  rw [← List.take_takeWhile, List.take_of_length_le (by omega)]

theorem wordLength_take_eq_none {cs : List Char} (absent : wordLength cs = none) (m : Nat) :
    wordLength (cs.take m) = none := by
  rw [Option.eq_none_iff_forall_ne_some] at absent ⊢
  intro n found
  obtain ⟨c, rest, front, letter, _⟩ := wordLength_eq_some.mp found
  exact absent _ (wordLength_eq_some.mpr ⟨c, _, eq_append_drop front, letter, rfl⟩)

theorem wordLength_whole {cs : List Char} (whole : wordLength cs = some cs.length) :
    ∀ c ∈ cs, isWordChar c = true := by
  obtain ⟨c, rest, rfl, letter, size⟩ := wordLength_eq_some.mp whole
  have same : rest.takeWhile isWordChar = rest :=
    (List.takeWhile_prefix isWordChar).eq_of_length (by simpa using size)
  intro d member
  rcases List.mem_cons.mp member with rfl | later
  · simp [isWordChar, letter]
  · exact List.takeWhile_eq_self_iff.mp same d later

theorem wordLength_append {front rest : List Char} (whole : wordLength front = some front.length)
    (parted : Parted rest) : wordLength (front ++ rest) = some front.length := by
  have each := wordLength_whole whole
  obtain ⟨c, more, rfl, letter, size⟩ := wordLength_eq_some.mp whole
  have ended : rest.takeWhile isWordChar = [] := by
    cases rest with
    | nil => rfl
    | cons d rest =>
        have space := parted.head rfl
        rw [List.takeWhile_cons_of_neg]
        intro counted
        simp [isSpace_of_wordChar counted] at space
  refine wordLength_eq_some.mpr ⟨c, more ++ rest, rfl, letter, ?_⟩
  rw [List.takeWhile_append_of_pos (fun d member => each d (List.mem_cons_of_mem _ member)), ended]
  simp

theorem wordLength_append_eq_none {front rest : List Char} (filled : front ≠ [])
    (absent : wordLength front = none) : wordLength (front ++ rest) = none := by
  cases front with
  | nil => contradiction
  | cons c front => simpa [wordLength] using absent

theorem punctuatorLength_eq_some {cs : List Char} {n : Nat} :
    punctuatorLength cs = some n ↔ ∃ mark longer shorter, punctuators = longer ++ mark :: shorter ∧
      mark <+: cs ∧ (∀ other ∈ longer, ¬ other <+: cs) ∧ mark.length = n := by
  simp only [punctuatorLength, Option.map_eq_some_iff, List.find?_eq_some_iff_append,
    List.isPrefixOf_iff_prefix, Bool.not_eq_true', Bool.eq_false_iff, ne_eq]
  grind

theorem punctuatorLength_take {cs : List Char} {n m : Nat} (found : punctuatorLength cs = some n)
    (enough : n ≤ m) : punctuatorLength (cs.take m) = some n := by
  obtain ⟨mark, longer, shorter, all, starts, notLonger, rfl⟩ := punctuatorLength_eq_some.mp found
  refine punctuatorLength_eq_some.mpr ⟨mark, longer, shorter, all, ?_, ?_, rfl⟩
  · exact List.prefix_take_iff.mpr ⟨starts, enough⟩
  · intro other member inside
    exact notLonger other member (inside.trans (List.take_prefix m cs))

theorem punctuatorLength_append {front rest : List Char}
    (whole : punctuatorLength front = some front.length) (parted : Parted rest) :
    punctuatorLength (front ++ rest) = some front.length := by
  have plain : ∀ mark ∈ punctuators, mark.any isSpace = false := by decide
  obtain ⟨mark, longer, shorter, all, starts, notLonger, size⟩ :=
    punctuatorLength_eq_some.mp whole
  refine punctuatorLength_eq_some.mpr ⟨mark, longer, shorter, all, ?_, ?_, size⟩
  · exact starts.trans (List.prefix_append _ _)
  · intro other member inside
    refine notLonger other member (parted.of_prefix_append (plain other ?_) inside)
    simp [all, member]

/-! No class that is tried earlier starts the text when what stands far behind is cut off, or when
a blank is put there. -/

theorem spaceLength_eq_none {cs : List Char} : spaceLength cs = none ↔ spaceRun cs = 0 := by
  unfold spaceLength
  split <;> simp_all

theorem spaceLength_take_eq_none {cs : List Char} (absent : spaceLength cs = none) (m : Nat) :
    spaceLength (cs.take m) = none := by
  rw [spaceLength_eq_none] at absent ⊢
  rw [spaceRun_take (by omega), absent]

theorem stringLength_take_eq_none {cs : List Char} (absent : stringLength cs = none) (m : Nat) :
    stringLength (cs.take m) = none := by
  rw [Option.eq_none_iff_forall_ne_some] at absent ⊢
  intro n found
  exact absent n (stringLength_of_start found ((List.take_prefix _ _).trans (List.take_prefix _ _)))

theorem charLength_take_eq_none {cs : List Char} (absent : charLength cs = none) (m : Nat) :
    charLength (cs.take m) = none := by
  rw [Option.eq_none_iff_forall_ne_some] at absent ⊢
  intro n found
  exact absent n (charLength_of_start found ((List.take_prefix _ _).trans (List.take_prefix _ _)))

theorem lineCommentLength_take_eq_none {cs : List Char} (absent : lineCommentLength cs = none)
    (m : Nat) : lineCommentLength (cs.take m) = none := by
  rw [lineCommentLength_eq_none] at absent ⊢
  exact fun starts => absent (starts.trans (List.take_prefix m cs))

theorem opensBlockComment_take_eq_false {cs : List Char} (absent : opensBlockComment cs = false)
    (m : Nat) : opensBlockComment (cs.take m) = false := by
  rw [opensBlockComment_eq_false] at absent ⊢
  exact fun starts => absent (starts.trans (List.take_prefix m cs))

theorem blockCommentLength_eq_none {cs : List Char} (absent : opensBlockComment cs = false) :
    blockCommentLength cs = none := by
  rw [Option.eq_none_iff_forall_ne_some]
  intro n found
  obtain ⟨rest, _, rfl, _⟩ := blockComment_eq found
  simp [opensBlockComment] at absent

theorem Opens.lexeme_eq {cs : List Char} {kind : LexemeKind} {n : Nat} (opens : Opens cs kind n) :
    lexeme cs = some (kind, n) := by
  cases opens with
  | space found => simp [lexeme, found]
  | lineComment space found => simp [lexeme, space, found]
  | blockComment space line found => simp [lexeme, space, line, found]
  | string space line block found =>
      simp [lexeme, space, line, blockCommentLength_eq_none block, block, found]
  | char space line block string found =>
      simp [lexeme, space, line, blockCommentLength_eq_none block, block, string, found]
  | number space line block string char found =>
      simp [lexeme, space, line, blockCommentLength_eq_none block, block, string, char, found]
  | word space line block string char number found =>
      simp [lexeme, space, line, blockCommentLength_eq_none block, block, string, char, number,
        found]
  | punctuator space line block string char number word found =>
      simp [lexeme, space, line, blockCommentLength_eq_none block, block, string, char, number,
        word, found]

/-- What gives a token does not depend on what stands far behind it. -/
theorem lexeme_take_of_kept {cs : List Char} {kind : LexemeKind} {n m : Nat}
    (found : lexeme cs = some (kind, n)) (kept : kind.isSkipped = false) (enough : n ≤ m) :
    lexeme (cs.take m) = some (kind, n) := by
  have inside : cs.take n <+: cs.take m := List.take_prefix_take_left enough
  apply Opens.lexeme_eq
  cases lexeme_opens found with
  | space | lineComment | blockComment => contradiction
  | string space line block counted =>
      exact .string (spaceLength_take_eq_none space m) (lineCommentLength_take_eq_none line m)
        (opensBlockComment_take_eq_false block m) (stringLength_of_start counted inside)
  | char space line block string counted =>
      exact .char (spaceLength_take_eq_none space m) (lineCommentLength_take_eq_none line m)
        (opensBlockComment_take_eq_false block m) (stringLength_take_eq_none string m)
        (charLength_of_start counted inside)
  | number space line block string char counted =>
      exact .number (spaceLength_take_eq_none space m) (lineCommentLength_take_eq_none line m)
        (opensBlockComment_take_eq_false block m) (stringLength_take_eq_none string m)
        (charLength_take_eq_none char m) (numberLength_take counted enough)
  | word space line block string char number counted =>
      exact .word (spaceLength_take_eq_none space m) (lineCommentLength_take_eq_none line m)
        (opensBlockComment_take_eq_false block m) (stringLength_take_eq_none string m)
        (charLength_take_eq_none char m) (numberLength_take_eq_none number m)
        (wordLength_take counted enough)
  | punctuator space line block string char number word counted =>
      exact .punctuator (spaceLength_take_eq_none space m) (lineCommentLength_take_eq_none line m)
        (opensBlockComment_take_eq_false block m) (stringLength_take_eq_none string m)
        (charLength_take_eq_none char m) (numberLength_take_eq_none number m)
        (wordLength_take_eq_none word m) (punctuatorLength_take counted enough)

/-- No literal starts where a number, a word or a punctuator is the whole text. -/
theorem opening_eq_none {quote : Char} (outside : isWordChar quote = false)
    (noDot : quote ≠ '.') (noMark : ∀ mark ∈ punctuators, quote ∉ mark) {cs : List Char}
    (whole : numberLength cs = some cs.length ∨ wordLength cs = some cs.length ∨
      punctuatorLength cs = some cs.length) : opening quote cs = none := by
  rw [Option.eq_none_iff_forall_ne_some]
  intro n found
  obtain ⟨mark, member, ⟨behind, rfl⟩, _⟩ := (opening_eq_some outside).mp found
  rcases whole with number | word | punctuator
  · -- a number starts with a dot or a digit, which no literal does
    obtain ⟨c, first, start⟩ := opening_head outside found
    obtain ⟨d, rest, digit, ⟨same, _⟩ | ⟨same, _⟩⟩ := numberLength_eq_some.mp number
    · rw [same, List.head?_cons, Option.some.injEq] at first
      subst first
      rcases start with same | letter
      · exact noDot same.symm
      · contradiction
    · rw [same, List.head?_cons, Option.some.injEq] at first
      subst first
      rcases start with rfl | letter
      · simp [isWordChar_of_digit digit] at outside
      · simp only [List.mem_cons, List.not_mem_nil, or_false] at letter
        rcases letter with rfl | rfl | rfl <;> contradiction
  · have counted := wordLength_whole word quote (by simp)
    simp [outside] at counted
  · obtain ⟨chosen, _, _, all, starts, _, size⟩ := punctuatorLength_eq_some.mp punctuator
    refine noMark chosen (by simp [all]) ?_
    simp [starts.eq_of_length size]

theorem opening_unique {cs : List Char} {n : Nat} (found : opening '\'' cs = some n) :
    opening '"' cs = none := by
  rw [Option.eq_none_iff_forall_ne_some]
  intro m other
  obtain ⟨mark, member, starts, _⟩ := (opening_eq_some (by decide)).mp found
  obtain ⟨mark', member', starts', _⟩ := (opening_eq_some (by decide)).mp other
  have apart : ∀ mark ∈ encodingMarks, ∀ mark' ∈ encodingMarks,
      ¬ mark ++ ['\''] <+: mark' ++ ['"'] ∧ ¬ mark' ++ ['"'] <+: mark ++ ['\''] := by decide
  rcases List.prefix_or_prefix_of_prefix starts starts' with inside | inside
  · exact (apart mark member mark' member').1 inside
  · exact (apart mark member mark' member').2 inside

theorem opening_append_eq_none {quote : Char} (outside : isWordChar quote = false)
    (noSpace : isSpace quote = false) {front rest : List Char} (absent : opening quote front = none)
    (parted : Parted rest) : opening quote (front ++ rest) = none := by
  have plain : ∀ mark ∈ encodingMarks, mark.any isSpace = false := by decide
  rw [Option.eq_none_iff_forall_ne_some] at absent ⊢
  intro n found
  obtain ⟨mark, member, starts, rfl⟩ := (opening_eq_some outside).mp found
  refine absent _ ((opening_eq_some outside).mpr ⟨mark, member, ?_, rfl⟩)
  refine parted.of_prefix_append ?_ starts
  rw [List.any_append, plain mark member]
  simpa using noSpace

theorem spaceRun_mark {d : Char} {rest : List Char} :
    spaceRun ('\\' :: d :: rest) = 0 ↔ d ≠ '\n' ∧ ¬ (d = '\r' ∧ rest.head? = some '\n') := by
  by_cases feed : d = '\n'
  · simp [feed, spaceRun]
  · by_cases carried : d = '\r' ∧ rest.head? = some '\n'
    · obtain ⟨rfl, head⟩ := carried
      obtain ⟨more, rfl⟩ := List.head?_eq_some_iff.mp head
      simp [spaceRun]
    · have none_ : spaceRun ('\\' :: d :: rest) = 0 := by
        rw [spaceRun.eq_3]
        · rfl
        · rintro more - same
          obtain ⟨rfl, rfl⟩ := List.cons.inj same
          simp at carried
        · rintro more - same
          exact feed (List.cons.inj same).1
      simp [none_, feed, carried]

theorem spaceRun_append_eq_zero {front : List Char} (filled : front ≠ [])
    (absent : spaceRun front = 0) (notMark : front ≠ ['\\']) (notCarried : front ≠ ['\\', '\r'])
    (rest : List Char) : spaceRun (front ++ rest) = 0 := by
  rcases front with _ | ⟨c, _ | ⟨d, front⟩⟩
  · contradiction
  · have other : c ≠ '\\' := by simpa using notMark
    simp_all [spaceRun]
  · by_cases mark : c = '\\'
    · subst mark
      obtain ⟨noFeed, noReturn⟩ := spaceRun_mark.mp absent
      refine spaceRun_mark.mpr ⟨noFeed, ?_⟩
      rintro ⟨rfl, head⟩
      cases front with
      | nil => contradiction
      | cons e front => exact noReturn ⟨rfl, head⟩
    · simp_all [spaceRun]

/-- A token ends where a blank is put behind it. -/
theorem lexeme_append {front rest : List Char} {kind : LexemeKind} (filled : front ≠ [])
    (found : lexeme front = some (kind, front.length)) (kept : kind.isSkipped = false)
    (parted : Parted rest) : lexeme (front ++ rest) = some (kind, front.length) := by
  have inside : front.take front.length <+: front ++ rest := by simp
  -- no reader that is tried earlier may find more to read across the border
  have blank (absent : spaceLength front = none) : spaceLength (front ++ rest) = none := by
    rw [spaceLength_eq_none] at absent ⊢
    apply spaceRun_append_eq_zero filled absent
    · rintro rfl
      rw [show lexeme ['\\'] = none by decide] at found
      contradiction
    · rintro rfl
      rw [show lexeme ['\\', '\r'] = none by decide] at found
      contradiction
  have line (absent : lineCommentLength front = none) : lineCommentLength (front ++ rest) = none := by
    rw [lineCommentLength_eq_none] at absent ⊢
    exact fun starts => absent (parted.of_prefix_append (by decide) starts)
  have block (absent : opensBlockComment front = false) :
      opensBlockComment (front ++ rest) = false := by
    rw [opensBlockComment_eq_false] at absent ⊢
    exact fun starts => absent (parted.of_prefix_append (by decide) starts)
  have string (absent : opening '"' front = none) : stringLength (front ++ rest) = none := by
    simp [stringLength, opening_append_eq_none (by decide) (by decide) absent parted]
  have char (absent : opening '\'' front = none) : charLength (front ++ rest) = none := by
    simp [charLength, opening_append_eq_none (by decide) (by decide) absent parted]
  apply Opens.lexeme_eq
  cases lexeme_opens found with
  | space | lineComment | blockComment => contradiction
  | string noSpace noLine noBlock counted =>
      exact .string (blank noSpace) (line noLine) (block noBlock)
        (stringLength_of_start counted inside)
  | char noSpace noLine noBlock _ counted =>
      refine .char (blank noSpace) (line noLine) (block noBlock) (string ?_)
        (charLength_of_start counted inside)
      obtain ⟨_, _, opened, _⟩ := charLength_eq_some.mp counted
      exact opening_unique opened
  | number noSpace noLine noBlock _ _ counted =>
      refine .number (blank noSpace) (line noLine) (block noBlock) (string ?_) (char ?_)
        (numberLength_append counted parted)
      · exact opening_eq_none (by decide) (by decide) (by decide) (.inl counted)
      · exact opening_eq_none (by decide) (by decide) (by decide) (.inl counted)
  | word noSpace noLine noBlock _ _ noNumber counted =>
      refine .word (blank noSpace) (line noLine) (block noBlock) (string ?_) (char ?_)
        (numberLength_append_eq_none noNumber parted) (wordLength_append counted parted)
      · exact opening_eq_none (by decide) (by decide) (by decide) (.inr (.inl counted))
      · exact opening_eq_none (by decide) (by decide) (by decide) (.inr (.inl counted))
  | punctuator noSpace noLine noBlock _ _ noNumber noWord counted =>
      refine .punctuator (blank noSpace) (line noLine) (block noBlock) (string ?_) (char ?_)
        (numberLength_append_eq_none noNumber parted) (wordLength_append_eq_none filled noWord)
        (punctuatorLength_append counted parted)
      · exact opening_eq_none (by decide) (by decide) (by decide) (.inr (.inr counted))
      · exact opening_eq_none (by decide) (by decide) (by decide) (.inr (.inr counted))

end TokenSearch.Lexer
