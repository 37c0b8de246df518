import TokenSearch.Lexer.Lexeme

namespace TokenSearch.Lexer

/-! What the lengths of lexemes say about the characters that they count: blanks and comments have
the shape of such, no other lexeme ends with a line feed, and what is skipped is found again when
the text is cut off behind it. -/

/-- The text of a line comment behind its mark. A line feed stands in it only behind a backslash
that takes it. -/
inductive LineText : List Char → Prop
  | nil : LineText []
  | plain {c : Char} {rest : List Char} : c ≠ '\n' → c ≠ '\\' → LineText rest → LineText (c :: rest)
  | taken {c : Char} {rest : List Char} : LineText rest → LineText ('\\' :: c :: rest)
  | carried {rest : List Char} : LineText rest → LineText ('\\' :: '\r' :: '\n' :: rest)
  | last : LineText ['\\']

/-- What may stand between tokens: one blank, one line splice, or one comment. A block comment ends
with the first mark that closes it. -/
inductive GapPiece : List Char → Prop
  | blank {c : Char} : isSpace c = true → GapPiece [c]
  | splice : GapPiece ['\\', '\n']
  | carriedSplice : GapPiece ['\\', '\r', '\n']
  | lineComment {body : List Char} : LineText body → GapPiece ('/' :: '/' :: body)
  | blockComment {body : List Char} : ¬ ['*', '/'] <:+: body ++ ['*'] →
      GapPiece ('/' :: '*' :: (body ++ ['*', '/']))

def IsGap (cs : List Char) : Prop :=
  ∃ pieces : List (List Char), (∀ piece ∈ pieces, GapPiece piece) ∧ pieces.flatten = cs

namespace IsGap

theorem nil : IsGap [] := ⟨[], by simp, rfl⟩

theorem piece {cs : List Char} (single : GapPiece cs) : IsGap cs :=
  ⟨[cs], by simpa using single, by simp⟩

theorem append {left right : List Char} (first : IsGap left) (second : IsGap right) :
    IsGap (left ++ right) := by
  obtain ⟨pieces, each, rfl⟩ := first
  obtain ⟨others, eachOther, rfl⟩ := second
  refine ⟨pieces ++ others, ?_, by simp⟩
  intro piece member
  rcases List.mem_append.mp member with earlier | later
  · exact each piece earlier
  · exact eachOther piece later

end IsGap

theorem eq_append_drop {cs front : List Char} {n : Nat} (taken : cs.take n = front) :
    cs = front ++ cs.drop n := by
  rw [← taken, List.take_append_drop]

theorem spaceRun_le (cs : List Char) : spaceRun cs ≤ cs.length := by
  fun_induction spaceRun cs <;> simp_all

theorem isGap_spaceRun (cs : List Char) : IsGap (cs.take (spaceRun cs)) := by
  fun_induction spaceRun cs with
  | case1 rest ih => exact (IsGap.piece .carriedSplice).append ih
  | case2 rest ih => exact (IsGap.piece .splice).append ih
  | case3 c rest _ _ space ih => exact (IsGap.piece (.blank space)).append ih
  | case4 => exact .nil
  | case5 => exact .nil

theorem spaceRun_take {cs : List Char} {m : Nat} (enough : spaceRun cs ≤ m) :
    spaceRun (cs.take m) = spaceRun cs := by
  fun_induction spaceRun cs generalizing m with
  | case1 rest ih =>
      obtain ⟨k, rfl⟩ := Nat.exists_eq_add_of_le' (show 3 ≤ m by omega)
      simpa [spaceRun] using ih (by omega)
  | case2 rest ih =>
      obtain ⟨k, rfl⟩ := Nat.exists_eq_add_of_le' (show 2 ≤ m by omega)
      simpa [spaceRun] using ih (by omega)
  | case3 c rest notCarried notSplice space ih =>
      obtain ⟨k, rfl⟩ := Nat.exists_eq_add_of_le' (show 1 ≤ m by omega)
      have other : c ≠ '\\' := by rintro rfl; contradiction
      simpa [spaceRun, other, space] using ih (by omega)
  | case4 c rest notCarried notSplice noSpace =>
      cases m with
      | zero => rfl
      | succ k =>
          rw [List.take_succ_cons, spaceRun.eq_def]
          split
          · rename_i more same
            obtain ⟨rfl, front⟩ := List.cons.inj same
            exact (notCarried _ rfl (eq_append_drop front)).elim
          · rename_i more same
            obtain ⟨rfl, front⟩ := List.cons.inj same
            exact (notSplice _ rfl (eq_append_drop front)).elim
          · rename_i same
            obtain ⟨rfl, _⟩ := List.cons.inj same
            simp [noSpace]
          · contradiction
  | case5 => simp [spaceRun]

theorem lineBody_le (cs : List Char) : lineBody cs ≤ cs.length := by
  fun_induction lineBody cs <;> simp_all

theorem lineText_lineBody (cs : List Char) : LineText (cs.take (lineBody cs)) := by
  fun_induction lineBody cs with
  | case1 => exact .nil
  | case2 rest ih => exact .carried ih
  | case3 c rest _ ih => exact .taken ih
  | case4 => exact .nil
  | case5 c rest notCarried notTaken notEnd ih =>
      by_cases mark : c = '\\'
      · subst mark
        cases rest with
        | nil => exact .last
        | cons next more => exact (notTaken next more rfl rfl).elim
      · exact .plain notEnd mark ih

theorem lineBody_take {cs : List Char} {m : Nat} (enough : lineBody cs ≤ m) :
    lineBody (cs.take m) = lineBody cs := by
  fun_induction lineBody cs generalizing m with
  | case1 => simp [lineBody]
  | case2 rest ih =>
      obtain ⟨k, rfl⟩ := Nat.exists_eq_add_of_le' (show 3 ≤ m by omega)
      simpa [lineBody] using ih (by omega)
  | case3 c rest notCarried ih =>
      obtain ⟨k, rfl⟩ := Nat.exists_eq_add_of_le' (show 2 ≤ m by omega)
      rw [List.take_succ_cons, List.take_succ_cons, lineBody, ih (by omega)]
      intro more isReturn front
      exact notCarried _ isReturn (eq_append_drop front)
  | case4 rest =>
      cases m with
      | zero => rfl
      | succ k => simp [lineBody]
  | case5 c rest notCarried notTaken notEnd ih =>
      obtain ⟨k, rfl⟩ := Nat.exists_eq_add_of_le' (show 1 ≤ m by omega)
      rw [List.take_succ_cons, lineBody, if_neg notEnd, ih (by omega)]
      · intro more isMark front
        exact notCarried _ isMark (eq_append_drop front)
      · intro next more isMark front
        exact notTaken next _ isMark (eq_append_drop front)

/-- The body of a block comment runs to the first mark that closes it. -/
theorem blockBody_shape {cs : List Char} {n : Nat} (found : blockBody cs = some n) :
    n ≤ cs.length ∧ ∃ body, cs.take n = body ++ ['*', '/'] ∧ ¬ ['*', '/'] <:+: body ++ ['*'] := by
  fun_induction blockBody cs generalizing n with
  | case1 => simp at found
  | case2 rest =>
      cases found
      refine ⟨by simp, [], rfl, ?_⟩
      intro inside
      simpa using inside.length_le
  | case3 c rest notClosing ih =>
      obtain ⟨k, later, rfl⟩ := Option.map_eq_some_iff.mp found
      obtain ⟨bound, body, front, open_⟩ := ih later
      refine ⟨by simpa using bound, c :: body, by simp [front], ?_⟩
      intro inside
      rcases List.infix_cons_iff.mp inside with atStart | inner
      · obtain ⟨back, same⟩ := atStart
        obtain ⟨rfl, tail⟩ := List.cons.inj same
        cases body with
        | nil => simp at tail
        | cons next body =>
            obtain ⟨rfl, _⟩ := List.cons.inj tail
            exact notClosing _ rfl (eq_append_drop front)
      · exact open_ inner

theorem blockBody_take {cs : List Char} {n m : Nat} (found : blockBody cs = some n)
    (enough : n ≤ m) : blockBody (cs.take m) = some n := by
  fun_induction blockBody cs generalizing n m with
  | case1 => simp at found
  | case2 rest =>
      cases found
      obtain ⟨k, rfl⟩ := Nat.exists_eq_add_of_le' enough
      simp [blockBody]
  | case3 c rest notClosing ih =>
      obtain ⟨k, later, rfl⟩ := Option.map_eq_some_iff.mp found
      obtain ⟨l, rfl⟩ := Nat.exists_eq_add_of_le' (show 1 ≤ m by omega)
      rw [List.take_succ_cons, blockBody, ih later (by omega)]
      · rfl
      · intro more isStar front
        exact notClosing _ isStar (eq_append_drop front)

theorem quotedBody_shape {quote : Char} {cs : List Char} {n : Nat}
    (found : quotedBody quote cs = some n) :
    0 < n ∧ n ≤ cs.length ∧ (cs.take n).getLast? = some quote := by
  fun_induction quotedBody quote cs generalizing n with
  | case1 => simp at found
  | case2 rest ih =>
      obtain ⟨k, later, rfl⟩ := Option.map_eq_some_iff.mp found
      obtain ⟨some_, bound, last⟩ := ih later
      refine ⟨by omega, by simpa using bound, ?_⟩
      simp [List.getLast?_cons, last]
  | case3 c rest _ ih =>
      obtain ⟨k, later, rfl⟩ := Option.map_eq_some_iff.mp found
      obtain ⟨some_, bound, last⟩ := ih later
      refine ⟨by omega, by simpa using bound, ?_⟩
      simp [List.getLast?_cons, last]
  | case4 => 
      cases found
      simp
  | case5 => simp at found
  | case6 c rest _ _ _ _ ih =>
      obtain ⟨k, later, rfl⟩ := Option.map_eq_some_iff.mp found
      obtain ⟨some_, bound, last⟩ := ih later
      refine ⟨by omega, by simpa using bound, ?_⟩
      simp [List.getLast?_cons, last]

theorem opening_le {quote : Char} {cs : List Char} {n : Nat} (found : opening quote cs = some n) :
    n ≤ cs.length := by
  unfold opening at found
  grind

theorem quoted_shape {quote : Char} {cs : List Char} {n m : Nat}
    (opened : opening quote cs = some n) (closed : quotedBody quote (cs.drop n) = some m) :
    n + m ≤ cs.length ∧ (cs.take (n + m)).getLast? = some quote := by
  have first := opening_le opened
  obtain ⟨_, bound, last⟩ := quotedBody_shape closed
  rw [List.length_drop] at bound
  refine ⟨by omega, ?_⟩
  rw [List.take_add, List.getLast?_append, last]
  rfl

theorem stringLength_eq_some {cs : List Char} {n : Nat} :
    stringLength cs = some n ↔
      ∃ k m, opening '"' cs = some k ∧ quotedBody '"' (cs.drop k) = some m ∧ k + m = n := by
  simp [stringLength, Option.bind_eq_some_iff]

theorem charLength_eq_some {cs : List Char} {n : Nat} :
    charLength cs = some n ↔
      ∃ k m, opening '\'' cs = some k ∧ quotedBody '\'' (cs.drop k) = some m ∧ m ≠ 1 ∧
        k + m = n := by
  simp [charLength, Option.bind_eq_some_iff]

theorem stringLength_shape {cs : List Char} {n : Nat} (found : stringLength cs = some n) :
    n ≤ cs.length ∧ (cs.take n).getLast? = some '"' := by
  obtain ⟨k, m, opened, closed, rfl⟩ := stringLength_eq_some.mp found
  exact quoted_shape opened closed

theorem charLength_shape {cs : List Char} {n : Nat} (found : charLength cs = some n) :
    n ≤ cs.length ∧ (cs.take n).getLast? = some '\'' := by
  obtain ⟨k, m, opened, closed, _, rfl⟩ := charLength_eq_some.mp found
  exact quoted_shape opened closed

theorem not_lineFeed_of_wordChar {c : Char} (counted : isWordChar c = true) : c ≠ '\n' := by
  rintro rfl
  exact absurd counted (by decide)

theorem not_lineFeed_of_number {c : Char} (counted : (isWordChar c || c = '.') = true) :
    c ≠ '\n' := by
  rintro rfl
  exact absurd counted (by decide)

theorem numberTail_shape (cs : List Char) :
    numberTail cs ≤ cs.length ∧ '\n' ∉ cs.take (numberTail cs) := by
  fun_induction numberTail cs with
  | case1 => simp
  | case2 c counted =>
      refine ⟨by simp, ?_⟩
      simpa using (not_lineFeed_of_number counted).symm
  | case3 => simp
  | case4 c sign rest marked ih =>
      simp only [List.length_cons, List.take_succ_cons, List.mem_cons]
      grind
  | case5 c sign rest notMarked counted ih =>
      refine ⟨by simpa using ih.1, ?_⟩
      rw [List.take_succ_cons, List.mem_cons, not_or]
      exact ⟨(not_lineFeed_of_number counted).symm, ih.2⟩
  | case6 => simp

theorem numberLength_shape {cs : List Char} {n : Nat} (found : numberLength cs = some n) :
    n ≤ cs.length ∧ '\n' ∉ cs.take n := by
  have digit {d : Char} (isNumber : isDigit d = true) : d ≠ '\n' :=
    not_lineFeed_of_wordChar (by simp [isWordChar, isNumber])
  unfold numberLength at found
  split at found
  · rename_i d rest
    split at found
    · rename_i isNumber
      obtain ⟨bound, plain⟩ := numberTail_shape rest
      cases found
      refine ⟨by simpa using bound, ?_⟩
      simp [plain, (digit isNumber).symm]
    · cases found
  · rename_i d rest _
    split at found
    · rename_i isNumber
      obtain ⟨bound, plain⟩ := numberTail_shape rest
      cases found
      refine ⟨by simpa using bound, ?_⟩
      simp [plain, (digit isNumber).symm]
    · cases found
  · cases found

theorem wordLength_shape {cs : List Char} {n : Nat} (found : wordLength cs = some n) :
    n ≤ cs.length ∧ '\n' ∉ cs.take n := by
  unfold wordLength at found
  split at found
  · rename_i c rest
    split at found
    · rename_i isFirst
      cases found
      have bound := (List.takeWhile_prefix isWordChar (l := rest)).length_le
      have front : rest.take (rest.takeWhile isWordChar).length = rest.takeWhile isWordChar :=
        (List.prefix_iff_eq_take.mp (List.takeWhile_prefix isWordChar)).symm
      refine ⟨by simpa using bound, ?_⟩
      rw [List.take_succ_cons, front, List.mem_cons, not_or]
      refine ⟨(not_lineFeed_of_wordChar (by simp [isWordChar, isFirst])).symm, ?_⟩
      intro member
      have each := List.all_eq_true.mp (List.all_takeWhile (p := isWordChar) (l := rest))
      exact not_lineFeed_of_wordChar (each _ member) rfl
    · contradiction
  · contradiction

theorem punctuatorLength_shape {cs : List Char} {n : Nat} (found : punctuatorLength cs = some n) :
    n ≤ cs.length ∧ '\n' ∉ cs.take n := by
  obtain ⟨p, chosen, rfl⟩ := Option.map_eq_some_iff.mp found
  have atFront : p <+: cs := 
    List.isPrefixOf_iff_prefix.mp
      (List.find?_some (p := fun (p : List Char) => p.isPrefixOf cs) chosen)
  have plain : ∀ q ∈ punctuators, '\n' ∉ q := by decide
  refine ⟨atFront.length_le, ?_⟩
  rw [← List.prefix_iff_eq_take.mp atFront]
  exact plain p (List.mem_of_find?_eq_some chosen)

theorem headerLength_eq_some {cs : List Char} {n : Nat} :
    headerLength cs = some n ↔
      ∃ name rest, cs = '<' :: (name ++ '>' :: rest) ∧ name ≠ [] ∧
        (∀ c ∈ name, (c != '>' && c != '\n') = true) ∧ name.length + 2 = n := by
  constructor
  · intro found
    unfold headerLength at found
    split at found
    · rename_i rest
      simp only at found
      generalize closing : rest.takeWhile (fun c => c != '>' && c != '\n') = name at found
      split at found
      · contradiction
      · rename_i filled
        split at found
        · rename_i more behind
          have front : rest.take name.length = name := by
            rw [← closing]
            exact (List.prefix_iff_eq_take.mp (List.takeWhile_prefix _)).symm
          have whole := eq_append_drop front
          rw [behind] at whole
          refine ⟨name, more, by rw [whole], by simpa using filled, ?_, Option.some.inj found⟩
          rw [← closing]
          exact List.all_eq_true.mp List.all_takeWhile
        · contradiction
    · contradiction
  · rintro ⟨name, rest, rfl, filled, inner, rfl⟩
    have whole : (name ++ '>' :: rest).takeWhile (fun c => c != '>' && c != '\n') = name := by
      rw [List.takeWhile_append_of_pos inner]
      simp
    simp [headerLength, whole, filled]

theorem headerLength_shape {cs : List Char} {n : Nat} (found : headerLength cs = some n) :
    n ≤ cs.length ∧ (cs.take n).getLast? = some '>' := by
  obtain ⟨name, rest, rfl, _, _, rfl⟩ := headerLength_eq_some.mp found
  refine ⟨by simp, ?_⟩
  simp [List.take_append, List.getLast?_cons]

/-- The lexeme that starts a text, with the classes before its own that do not start it. -/
inductive Opens (cs : List Char) : LexemeKind → Nat → Prop
  | space {n : Nat} : spaceLength cs = some n → Opens cs .space n
  | lineComment {n : Nat} : spaceLength cs = none → lineCommentLength cs = some n →
      Opens cs .lineComment n
  | blockComment {n : Nat} : spaceLength cs = none → lineCommentLength cs = none →
      blockCommentLength cs = some n → Opens cs .blockComment n
  | string {n : Nat} : spaceLength cs = none → lineCommentLength cs = none →
      opensBlockComment cs = false → stringLength cs = some n → Opens cs .string n
  | char {n : Nat} : spaceLength cs = none → lineCommentLength cs = none →
      opensBlockComment cs = false → stringLength cs = none → charLength cs = some n →
      Opens cs .char n
  | number {n : Nat} : spaceLength cs = none → lineCommentLength cs = none →
      opensBlockComment cs = false → stringLength cs = none → charLength cs = none →
      numberLength cs = some n → Opens cs .number n
  | word {n : Nat} : spaceLength cs = none → lineCommentLength cs = none →
      opensBlockComment cs = false → stringLength cs = none → charLength cs = none →
      numberLength cs = none → wordLength cs = some n → Opens cs .word n
  | punctuator {n : Nat} : spaceLength cs = none → lineCommentLength cs = none →
      opensBlockComment cs = false → stringLength cs = none → charLength cs = none →
      numberLength cs = none → wordLength cs = none → punctuatorLength cs = some n →
      Opens cs .punctuator n

/-- Of two classes that are tried one after the other, the first one decides, or it does not start
the text. -/
theorem tried {kind : LexemeKind} {length : Option Nat} {others : Option (LexemeKind × Nat)}
    {result : LexemeKind × Nat}
    (found : (if let some n := length then some (kind, n) else others) = some result) :
    (∃ n, length = some n ∧ result = (kind, n)) ∨ (length = none ∧ others = some result) := by
  cases length with
  | some n => exact .inl ⟨n, rfl, (Option.some.inj found).symm⟩
  | none => exact .inr ⟨rfl, found⟩

theorem lexeme_opens {cs : List Char} {kind : LexemeKind} {n : Nat}
    (found : lexeme cs = some (kind, n)) : Opens cs kind n := by
  unfold lexeme at found
  rcases tried found with ⟨k, space, same⟩ | ⟨space, found⟩
  · cases same
    exact .space space
  rcases tried found with ⟨k, line, same⟩ | ⟨line, found⟩
  · cases same
    exact .lineComment space line
  rcases tried found with ⟨k, block, same⟩ | ⟨block, found⟩
  · cases same
    exact .blockComment space line block
  split at found
  · contradiction
  rename_i opened
  rw [Bool.not_eq_true] at opened
  rcases tried found with ⟨k, string, same⟩ | ⟨string, found⟩
  · cases same
    exact .string space line opened string
  rcases tried found with ⟨k, char, same⟩ | ⟨char, found⟩
  · cases same
    exact .char space line opened string char
  rcases tried found with ⟨k, number, same⟩ | ⟨number, found⟩
  · cases same
    exact .number space line opened string char number
  rcases tried found with ⟨k, word, same⟩ | ⟨word, found⟩
  · cases same
    exact .word space line opened string char number word
  obtain ⟨k, punctuator, same⟩ := Option.map_eq_some_iff.mp found
  cases same
  exact .punctuator space line opened string char number word punctuator

def LexemeKind.isSkipped : LexemeKind → Bool
  | .space | .lineComment | .blockComment => true
  | _ => false

theorem spaceLength_eq_some {cs : List Char} {n : Nat} (found : spaceLength cs = some n) :
    spaceRun cs = n ∧ 0 < n := by
  unfold spaceLength at found
  split at found
  · contradiction
  · rename_i k counted
    cases found
    exact ⟨counted, by omega⟩

theorem lineComment_eq {cs : List Char} {n : Nat} (found : lineCommentLength cs = some n) :
    ∃ rest, cs = '/' :: '/' :: rest ∧ n = lineBody rest + 2 := by
  unfold lineCommentLength at found
  split at found
  · rename_i rest
    exact ⟨rest, rfl, (Option.some.inj found).symm⟩
  · contradiction

theorem blockComment_eq {cs : List Char} {n : Nat} (found : blockCommentLength cs = some n) :
    ∃ rest k, cs = '/' :: '*' :: rest ∧ blockBody rest = some k ∧ n = k + 2 := by
  unfold blockCommentLength at found
  split at found
  · rename_i rest
    obtain ⟨k, body, rfl⟩ := Option.map_eq_some_iff.mp found
    exact ⟨rest, k, rfl, body, rfl⟩
  · contradiction

theorem isGap_of_skipped {cs : List Char} {kind : LexemeKind} {n : Nat}
    (found : lexeme cs = some (kind, n)) (skipped : kind.isSkipped = true) :
    n ≤ cs.length ∧ IsGap (cs.take n) := by
  cases lexeme_opens found with
  | space counted =>
      obtain ⟨rfl, _⟩ := spaceLength_eq_some counted
      exact ⟨spaceRun_le cs, isGap_spaceRun cs⟩
  | lineComment _ counted =>
      obtain ⟨rest, rfl, rfl⟩ := lineComment_eq counted
      exact ⟨by simpa using lineBody_le rest, .piece (.lineComment (lineText_lineBody rest))⟩
  | blockComment _ _ counted =>
      obtain ⟨rest, k, rfl, body, rfl⟩ := blockComment_eq counted
      obtain ⟨bound, inner, front, first⟩ := blockBody_shape body
      refine ⟨by simpa using bound, .piece ?_⟩
      rw [List.take_succ_cons, List.take_succ_cons, front]
      exact .blockComment first
  | string | char | number | word | punctuator => contradiction

/-- What is skipped does not depend on what stands far behind it. -/
theorem lexeme_take_of_skipped {cs : List Char} {kind : LexemeKind} {n m : Nat}
    (found : lexeme cs = some (kind, n)) (skipped : kind.isSkipped = true) (enough : n ≤ m) :
    lexeme (cs.take m) = some (kind, n) := by
  cases lexeme_opens found with
  | space counted =>
      obtain ⟨same, positive⟩ := spaceLength_eq_some counted
      have again : spaceLength (cs.take m) = some n := by
        obtain ⟨k, rfl⟩ := Nat.exists_eq_add_of_le' positive
        rw [← same] at enough
        simp only [spaceLength, spaceRun_take enough, same]
      simp [lexeme, again]
  | lineComment _ counted =>
      obtain ⟨rest, rfl, rfl⟩ := lineComment_eq counted
      obtain ⟨k, rfl⟩ := Nat.exists_eq_add_of_le' (show 2 ≤ m by omega)
      have again := lineBody_take (m := k) (show lineBody rest ≤ k by omega)
      simp [lexeme, spaceLength, spaceRun, isSpace, lineCommentLength, again]
  | blockComment _ _ counted =>
      obtain ⟨rest, size, rfl, body, rfl⟩ := blockComment_eq counted
      obtain ⟨k, rfl⟩ := Nat.exists_eq_add_of_le' (show 2 ≤ m by omega)
      have again := blockBody_take (m := k) body (by omega)
      simp [lexeme, spaceLength, spaceRun, isSpace, lineCommentLength, blockCommentLength, again]
  | string | char | number | word | punctuator => contradiction

theorem getLast?_ne_lineFeed {cs : List Char} (plain : '\n' ∉ cs) :
    cs.getLast? ≠ some '\n' := fun last => plain (List.mem_of_getLast? last)

/-- No lexeme but blanks and comments ends with a line feed. -/
theorem lexeme_shape {cs : List Char} {kind : LexemeKind} {n : Nat}
    (found : lexeme cs = some (kind, n)) (kept : kind.isSkipped = false) :
    n ≤ cs.length ∧ (cs.take n).getLast? ≠ some '\n' := by
  cases lexeme_opens found with
  | space | lineComment | blockComment => contradiction
  | string _ _ _ counted =>
      obtain ⟨bound, last⟩ := stringLength_shape counted
      exact ⟨bound, by rw [last]; decide⟩
  | char _ _ _ _ counted =>
      obtain ⟨bound, last⟩ := charLength_shape counted
      exact ⟨bound, by rw [last]; decide⟩
  | number _ _ _ _ _ counted =>
      obtain ⟨bound, plain⟩ := numberLength_shape counted
      exact ⟨bound, getLast?_ne_lineFeed plain⟩
  | word _ _ _ _ _ _ counted =>
      obtain ⟨bound, plain⟩ := wordLength_shape counted
      exact ⟨bound, getLast?_ne_lineFeed plain⟩
  | punctuator _ _ _ _ _ _ _ counted =>
      obtain ⟨bound, plain⟩ := punctuatorLength_shape counted
      exact ⟨bound, getLast?_ne_lineFeed plain⟩

end TokenSearch.Lexer
