import TokenSearch.Proofs.Lexer.Delimit
import TokenSearch.Proofs.Lexer.Tiling

namespace TokenSearch.Lexer

/-! Separators: blanks, splices and comments that a scan goes over, whatever tokens stand before
them and whatever text stands behind them. -/

/-- One blank, one line splice or one whole comment. A line comment comes with the line feed that
closes it, which no backslash in front of it may take. -/
inductive SeparatorPiece : List Char → Prop
  | blank {c : Char} : isSpace c = true → SeparatorPiece [c]
  | splice : SeparatorPiece ['\\', '\n']
  | carriedSplice : SeparatorPiece ['\\', '\r', '\n']
  | lineComment {body : List Char} : LineText body → ¬ ['\\'] <:+ body → ¬ ['\\', '\r'] <:+ body →
      SeparatorPiece ('/' :: '/' :: (body ++ ['\n']))
  | blockComment {body : List Char} : ¬ ['*', '/'] <:+: body ++ ['*'] →
      SeparatorPiece ('/' :: '*' :: (body ++ ['*', '/']))

def IsFiller (cs : List Char) : Prop :=
  ∃ pieces : List (List Char), (∀ piece ∈ pieces, SeparatorPiece piece) ∧ pieces.flatten = cs

/-- What keeps two tokens apart: a filler that starts with a blank. -/
structure IsSeparator (cs : List Char) : Prop where
  filler : IsFiller cs
  blank : ∃ c ∈ cs.head?, isSpace c = true

theorem IsSeparator.parted_append {cs : List Char} (separator : IsSeparator cs) (rest : List Char) :
    Parted (cs ++ rest) := by
  obtain ⟨c, head, space⟩ := separator.blank
  obtain ⟨more, rfl⟩ := List.head?_eq_some_iff.mp head
  exact .cons space (more ++ rest)

theorem nextLexeme_of_skipped {cs : List Char} {kind : LexemeKind} {n : Nat}
    (found : lexeme cs = some (kind, n)) (skipped : kind.isSkipped = true) (line : Int)
    (seen : List Token) : nextLexeme line seen cs = some (kind, n) := by
  have other : cs.head? ≠ some '<' := by
    intro head
    obtain ⟨rest, rfl⟩ := List.head?_eq_some_iff.mp head
    cases lexeme_opens found with
    | space counted => simp [spaceLength, spaceRun, isSpace] at counted
    | lineComment _ counted => simp [lineCommentLength] at counted
    | blockComment _ _ counted => simp [blockCommentLength] at counted
    | string | char | number | word | punctuator => contradiction
  simp [nextLexeme, other, found]

/-- A step of a scan over blanks or over a comment. -/
theorem scan_skipped {piece rest : List Char} {kind : LexemeKind} (filled : piece ≠ [])
    (found : lexeme (piece ++ rest) = some (kind, piece.length)) (skipped : kind.isSkipped = true)
    (place : Position) (seen : List Token) :
    scan place seen (piece ++ rest) = scan (place.advance piece) seen rest := by
  have next := nextLexeme_of_skipped found skipped place.line seen
  cases piece with
  | nil => contradiction
  | cons c piece =>
      rw [List.cons_append, List.length_cons] at next
      rw [List.cons_append, scan, next]
      simp only [List.take_left, List.drop_left, classify_eq_none_iff.mpr skipped]

/-- A step of a scan over a token. -/
theorem scan_kept {place : Position} {seen : List Token} {piece rest : List Char}
    {kind : LexemeKind} {token : TokenKind} (filled : piece ≠ [])
    (found : nextLexeme place.line seen (piece ++ rest) = some (kind, piece.length))
    (kept : classify kind (String.ofList piece) = some token) :
    scan place seen (piece ++ rest) =
      scan (place.advance piece)
        (⟨token, String.ofList piece, place, place.advance piece⟩ :: seen) rest := by
  cases piece with
  | nil => contradiction
  | cons c piece =>
      rw [List.cons_append, List.length_cons] at found
      rw [List.cons_append, scan, found]
      simp only [List.take_left, List.drop_left, kept]

/-- A scan goes over all blanks and splices that start a text at once. -/
theorem scan_spaceRun (place : Position) (seen : List Token) (cs : List Char) :
    scan place seen cs =
      scan (place.advance (cs.take (spaceRun cs))) seen (cs.drop (spaceRun cs)) := by
  rcases Nat.eq_zero_or_pos (spaceRun cs) with none_ | positive
  · simp [none_]
  · have size := List.length_take_of_le (spaceRun_le cs)
    have filled : cs.take (spaceRun cs) ≠ [] := List.ne_nil_of_length_pos (by omega)
    have found : lexeme (cs.take (spaceRun cs) ++ cs.drop (spaceRun cs)) =
        some (.space, (cs.take (spaceRun cs)).length) := by
      obtain ⟨k, counted⟩ := Nat.exists_eq_add_of_le' positive
      rw [List.take_append_drop, size]
      refine (Opens.space ?_).lexeme_eq
      simp [spaceLength, counted]
    rw [← scan_skipped filled found rfl place seen, List.take_append_drop]

/-- So it does not matter in how many runs it goes over them. -/
theorem scan_blank {piece : List Char}
    (counted : ∀ rest, spaceRun (piece ++ rest) = piece.length + spaceRun rest) (place : Position)
    (seen : List Token) (rest : List Char) :
    scan place seen (piece ++ rest) = scan (place.advance piece) seen rest := by
  rw [scan_spaceRun, counted, scan_spaceRun _ _ rest, List.take_length_add_append,
    List.drop_length_add_append, Position.advance_append]

theorem lineBody_append {body : List Char} (text : LineText body) (notMark : ¬ ['\\'] <:+ body)
    (notCarried : ¬ ['\\', '\r'] <:+ body) (rest : List Char) :
    lineBody (body ++ '\n' :: rest) = body.length := by
  induction text with
  | nil => simp [lineBody]
  | @plain c body notFeed other _ ih =>
      have later := ih (fun last => notMark (last.trans (List.suffix_cons c body)))
        (fun last => notCarried (last.trans (List.suffix_cons c body)))
      simp [lineBody, notFeed, other, later]
  | @taken c body text ih =>
      have inside : body <:+ '\\' :: c :: body := ⟨['\\', c], rfl⟩
      have later := ih (fun last => notMark (last.trans inside))
        (fun last => notCarried (last.trans inside))
      rw [List.cons_append, List.cons_append, lineBody, later]
      · rfl
      · rintro more rfl same
        -- a line feed in the body would itself be taken
        cases body with
        | nil => exact notCarried (List.suffix_refl _)
        | cons d body =>
            obtain ⟨rfl, _⟩ := List.cons.inj same
            cases text
            contradiction
  | @carried body _ ih =>
      have inside : body <:+ '\\' :: '\r' :: '\n' :: body := ⟨['\\', '\r', '\n'], rfl⟩
      have later := ih (fun last => notMark (last.trans inside))
        (fun last => notCarried (last.trans inside))
      simp [lineBody, later]
  | last => exact (notMark (List.suffix_refl _)).elim

theorem blockBody_append {body : List Char} (inner : ¬ ['*', '/'] <:+: body ++ ['*'])
    (rest : List Char) : blockBody (body ++ '*' :: '/' :: rest) = some (body.length + 2) := by
  induction body with
  | nil => simp [blockBody]
  | cons c body ih =>
      have later := ih (fun inside => inner (inside.trans (List.suffix_cons c _).isInfix))
      rw [List.cons_append, blockBody, later]
      · rfl
      · rintro more rfl same
        cases body with
        | nil => simp at same
        | cons d body =>
            obtain ⟨rfl, _⟩ := List.cons.inj same
            exact inner ⟨[], body ++ ['*'], rfl⟩

theorem SeparatorPiece.scan_eq {piece : List Char} (separates : SeparatorPiece piece)
    (place : Position) (seen : List Token) (rest : List Char) :
    scan place seen (piece ++ rest) = scan (place.advance piece) seen rest := by
  cases separates with
  | @blank c space =>
      apply scan_blank
      intro more
      have other : c ≠ '\\' := by
        rintro rfl
        contradiction
      simp [spaceRun, other, space, Nat.add_comm]
  | splice => exact scan_blank (fun more => by simp [spaceRun, Nat.add_comm]) place seen rest
  | carriedSplice => exact scan_blank (fun more => by simp [spaceRun, Nat.add_comm]) place seen rest
  | @lineComment body text notMark notCarried =>
      have found : lexeme ('/' :: '/' :: body ++ '\n' :: rest) =
          some (.lineComment, ('/' :: '/' :: body).length) := by
        simp [lexeme, spaceLength, spaceRun, isSpace, lineCommentLength,
          lineBody_append text notMark notCarried rest]
      have closed : scan (place.advance ('/' :: '/' :: body)) seen ('\n' :: rest) =
          scan ((place.advance ('/' :: '/' :: body)).advance ['\n']) seen rest :=
        @scan_blank ['\n'] (fun more => by simp [spaceRun, isSpace, Nat.add_comm]) _ seen rest
      have whole : '/' :: '/' :: (body ++ ['\n']) ++ rest = '/' :: '/' :: body ++ '\n' :: rest := by
        simp
      rw [whole, scan_skipped (by simp) found rfl, closed, ← Position.advance_append]
      rfl
  | @blockComment body inner =>
      have found : lexeme ('/' :: '*' :: (body ++ ['*', '/']) ++ rest) =
          some (.blockComment, ('/' :: '*' :: (body ++ ['*', '/'])).length) := by
        simp [lexeme, spaceLength, spaceRun, isSpace, lineCommentLength, blockCommentLength,
          blockBody_append inner rest]
      exact scan_skipped (by simp) found rfl place seen

/-- A scan goes over a filler and comes out of it with the tokens that it had. -/
theorem IsFiller.scan_eq {cs : List Char} (filler : IsFiller cs) (place : Position)
    (seen : List Token) (rest : List Char) :
    scan place seen (cs ++ rest) = scan (place.advance cs) seen rest := by
  obtain ⟨pieces, each, rfl⟩ := filler
  induction pieces generalizing place with
  | nil => rfl
  | cons piece pieces ih =>
      rw [List.flatten_cons, List.append_assoc, (each piece (by simp)).scan_eq,
        ih _ (fun other member => each other (List.mem_cons_of_mem _ member)), Position.advance_append]

end TokenSearch.Lexer
