import Mathlib
import TokenSearch.Lexer.Tokenize
import TokenSearch.Proofs.Data.Slice
import TokenSearch.Proofs.Lexer.Lexeme
import TokenSearch.Proofs.Lexer.Place

namespace TokenSearch.Lexer

open Text

/-! The tokens of a text and the gaps between them make up the whole text. Each token lies where its
positions say, and a gap holds nothing but blanks, line splices and comments. -/

theorem classify_eq_none_iff {kind : LexemeKind} {text : String} :
    classify kind text = none ↔ kind.isSkipped = true := by
  cases kind <;> simp [classify, LexemeKind.isSkipped]

theorem nextLexeme_cases {line : Int} {seen : List Token} {cs : List Char} {kind : LexemeKind}
    {n : Nat} (found : nextLexeme line seen cs = some (kind, n)) :
    lexeme cs = some (kind, n) ∨
      (kind = .header ∧ headerExpected line seen = true ∧ headerLength cs = some n) := by
  unfold nextLexeme at found
  split at found
  · rename_i expected
    split at found
    · rename_i k header
      cases found
      exact .inr ⟨rfl, (Bool.and_eq_true_iff.mp expected).2, header⟩
    · exact .inl found
  · exact .inl found

/-- A token covers some of the text that is left, and does not end with a line feed. -/
theorem nextLexeme_shape {line : Int} {seen : List Token} {cs : List Char} {kind : LexemeKind}
    {n : Nat} (found : nextLexeme line seen cs = some (kind, n)) (kept : kind.isSkipped = false) :
    n ≤ cs.length ∧ (cs.take n).getLast? ≠ some '\n' := by
  rcases nextLexeme_cases found with plain | ⟨_, _, header⟩
  · exact lexeme_shape plain kept
  · obtain ⟨bound, last⟩ := headerLength_shape header
    exact ⟨bound, by rw [last]; decide⟩

theorem lexeme_of_nextLexeme {line : Int} {seen : List Token} {cs : List Char} {kind : LexemeKind}
    {n : Nat} (found : nextLexeme line seen cs = some (kind, n)) (skipped : kind.isSkipped = true) :
    lexeme cs = some (kind, n) := by
  rcases nextLexeme_cases found with plain | ⟨rfl, _, _⟩
  · exact plain
  · contradiction

theorem nextLexeme_nil_seen (line : Int) (cs : List Char) : nextLexeme line [] cs = lexeme cs := by
  simp [nextLexeme, headerExpected]

/-- A gap that gives no token when it is lexed on its own. -/
structure Silent (gap : List Char) : Prop where
  isGap : IsGap gap
  empty : ∀ place, scan place [] gap = ⟨[], none⟩

theorem Silent.nil : Silent [] := ⟨.nil, fun _ => by simp [scan]⟩

/-- A gap stays silent if what was skipped in front of it is put there again. -/
theorem Silent.prepend {piece gap rest : List Char} {kind : LexemeKind} (nonempty : piece ≠ [])
    (found : lexeme (piece ++ (gap ++ rest)) = some (kind, piece.length))
    (skipped : kind.isSkipped = true) (silent : Silent gap) : Silent (piece ++ gap) := by
  have front : (piece ++ (gap ++ rest)).take (piece ++ gap).length = piece ++ gap := by
    rw [← List.append_assoc, List.take_left]
  have alone : lexeme (piece ++ gap) = some (kind, piece.length) := by
    have cut := lexeme_take_of_skipped (m := (piece ++ gap).length) found skipped (by simp)
    rwa [front] at cut
  have shape := isGap_of_skipped alone skipped
  rw [List.take_left] at shape
  refine ⟨shape.2.append silent.isGap, fun place => ?_⟩
  cases piece with
  | nil => contradiction
  | cons c piece =>
      rw [List.cons_append, List.length_cons] at alone
      rw [List.cons_append, scan, nextLexeme_nil_seen, alone]
      simp only [classify_eq_none_iff.mpr skipped, List.drop_left]
      exact silent.empty _

/-- The text `rest` behind `before` falls into the tokens and the gaps around them. -/
inductive Tiled : (before : List Char) → List Token → (rest : List Char) → Prop
  | last {before gap : List Char} : Silent gap → Tiled before [] gap
  | next {before gap piece rest : List Char} {token : Token} {tokens : List Token} :
      Silent gap → piece ≠ [] → piece.getLast? ≠ some '\n' → token.text = String.ofList piece →
      token.start = Position.start.advance (before ++ gap) →
      token.stop = Position.start.advance (before ++ gap ++ piece) →
      Tiled (before ++ gap ++ piece) tokens rest →
      Tiled before (token :: tokens) (gap ++ (piece ++ rest))

theorem Tiled.prepend {before piece rest : List Char} {tokens : List Token} {kind : LexemeKind}
    (nonempty : piece ≠ []) (found : lexeme (piece ++ rest) = some (kind, piece.length))
    (skipped : kind.isSkipped = true) (tiled : Tiled (before ++ piece) tokens rest) :
    Tiled before tokens (piece ++ rest) := by
  cases tiled with
  | last silent =>
      refine .last (@Silent.prepend _ _ [] _ nonempty ?_ skipped silent)
      simpa using found
  | next silent some_ plain text start stop later =>
      rw [← List.append_assoc]
      refine .next (silent.prepend nonempty found skipped) some_ plain text ?_ ?_ ?_
      · simpa using start
      · simpa using stop
      · simpa using later

/-- A scan that comes to the end tiles the text that it went over. -/
theorem scan_tiled {place : Position} {seen tokens : List Token} {cs before : List Char}
    (complete : scan place seen cs = ⟨tokens, none⟩) (here : place = Position.start.advance before) :
    ∃ new, tokens = seen.reverse ++ new ∧ Tiled before new cs := by
  fun_induction scan place seen cs generalizing before with
  | case1 place seen =>
      cases complete
      exact ⟨[], by simp, .last .nil⟩
  | case2 place seen c rest kind n found piece after text skipped =>
      rename_i ih
      have whole : piece ++ rest.drop n = c :: rest := by simp [piece]
      have bound := (isGap_of_skipped (lexeme_of_nextLexeme found (classify_eq_none_iff.mp skipped))
        (classify_eq_none_iff.mp skipped)).1
      have size : piece.length = n + 1 := by
        simp only [List.length_cons] at bound
        simp only [piece, List.length_cons, List.length_take]
        omega
      have there : after = Position.start.advance (before ++ piece) := by simp [after, here]
      obtain ⟨new, split, tiled⟩ := ih complete there
      refine ⟨new, split, ?_⟩
      rw [← whole]
      refine tiled.prepend (by simp [piece]) ?_ (classify_eq_none_iff.mp skipped)
      rw [whole, size]
      exact lexeme_of_nextLexeme found (classify_eq_none_iff.mp skipped)
  | case3 place seen c rest kind n found piece after text token kept =>
      rename_i ih
      have whole : piece ++ rest.drop n = c :: rest := by simp [piece]
      have isKept : kind.isSkipped = false := by
        cases skipped : kind.isSkipped with
        | true => simp [classify_eq_none_iff.mpr skipped] at kept
        | false => rfl
      have plain := (nextLexeme_shape found isKept).2
      have there : after = Position.start.advance (before ++ piece) := by simp [after, here]
      obtain ⟨new, split, tiled⟩ := ih complete there
      refine ⟨⟨token, text, place, after⟩ :: new, by simp [split], ?_⟩
      rw [← whole]
      have filled : piece ≠ [] := by simp [piece]
      refine .next .nil filled plain rfl ?_ ?_ (by simpa using tiled)
      · simp [here]
      · simp [after, here]
  | case4 => simp at complete

/-- The bytes before the first token, between each two neighbours, and behind the last token; the
text up to `behind` is left out. -/
def gapsFrom (source : Bytes) (behind : Int) : List Token → List Bytes
  | [] => [Data.slice source behind source.length]
  | token :: rest =>
      Data.slice source behind token.start.offset :: gapsFrom source token.stop.offset rest

def gaps (source : Bytes) (tokens : List Token) : List Bytes :=
  gapsFrom source 0 tokens

/-- Gaps and texts in turn, with a gap at both ends. -/
def weave : (gaps texts : List Bytes) → Bytes
  | gap :: gaps, text :: texts => gap ++ (text ++ weave gaps texts)
  | gaps, _ => gaps.flatten

/-- A token covers some bytes of `source`, its text is what they say, and both its positions count
the lines and columns of `source`. The last byte, and so the whole end of the token, is on the line
that the token gives for it. -/
structure LiesIn (source : Bytes) (token : Token) : Prop where
  start : token.start = Position.behind (source.take token.start.offset.toNat)
  stop : token.stop = Position.behind (source.take token.stop.offset.toNat)
  nonneg : 0 ≤ token.start.offset
  nonempty : token.start.offset < token.stop.offset
  inside : token.stop.offset ≤ source.length
  spelled : Data.slice source token.start.offset token.stop.offset = Utf8.encodeString token.text
  plain : (Utf8.encodeString token.text).getLast? ≠ some lineFeed
  lastLine : token.lastLine =
    (Position.behind (source.take (token.stop.offset.toNat - 1))).line

theorem utf8EncodeChar_ne_nil (c : Char) : String.utf8EncodeChar c ≠ [] := by
  rw [← List.length_pos_iff, String.length_utf8EncodeChar]
  exact c.utf8Size_pos

theorem encode_ne_nil {cs : List Char} (nonempty : cs ≠ []) : Utf8.encode cs ≠ [] := by
  cases cs with
  | nil => contradiction
  | cons c rest =>
      rw [Utf8.encode_cons]
      exact List.append_ne_nil_of_left_ne_nil (utf8EncodeChar_ne_nil c) _

theorem getLast?_encode {piece : List Char} (plain : piece.getLast? ≠ some '\n') :
    (Utf8.encode piece).getLast? ≠ some lineFeed := by
  cases last : piece.getLast? with
  | none =>
      rw [List.getLast?_eq_none_iff.mp last]
      simp
  | some c =>
      obtain ⟨front, rfl⟩ := List.getLast?_eq_some_iff.mp last
      intro fed
      rw [Utf8.encode_append, Utf8.encode_cons, Utf8.encode_nil, List.append_nil,
        List.getLast?_append, Option.or_eq_some_iff] at fed
      rcases fed with ending | ⟨none_, _⟩
      · exact plain (by rw [last, Position.eq_lineFeed_of_mem (List.mem_of_getLast? ending)])
      · exact utf8EncodeChar_ne_nil c (List.getLast?_eq_none_iff.mp none_)

theorem line_dropLast {bytes : Bytes} (plain : bytes.getLast? ≠ some lineFeed) :
    (Position.behind bytes).line = (Position.behind bytes.dropLast).line := by
  rcases List.eq_nil_or_concat bytes with rfl | ⟨front, byte, rfl⟩
  · rfl
  · have other : lineFeed ∉ [byte] := by
      rintro member
      exact plain (by simp [List.mem_singleton.mp member])
    rw [List.concat_eq_append, List.dropLast_concat, Position.behind_append_plain other]

theorem liesIn_of_tile {front piece rest : List Char} {token : Token} (some_ : piece ≠ [])
    (plain : piece.getLast? ≠ some '\n') (text : token.text = String.ofList piece)
    (start : token.start = Position.start.advance front)
    (stop : token.stop = Position.start.advance (front ++ piece)) :
    LiesIn (Utf8.encode (front ++ (piece ++ rest))) token := by
  have spelling : Utf8.encodeString token.text = Utf8.encode piece := by
    rw [text, Utf8.encodeString, String.toList_ofList]
  have first : token.start = Position.behind (Utf8.encode front) := by
    rw [start, Position.start_advance]
  have last : token.stop = Position.behind (Utf8.encode front ++ Utf8.encode piece) := by
    rw [stop, Position.start_advance, Utf8.encode_append]
  have firstOffset : token.start.offset = (Utf8.encode front).length := by
    rw [first, Position.behind_offset]
  have lastOffset : token.stop.offset = (Utf8.encode front ++ Utf8.encode piece).length := by
    rw [last, Position.behind_offset]
  have size : 0 < (Utf8.encode piece).length := List.length_pos_iff.mpr (encode_ne_nil some_)
  have ending := getLast?_encode plain
  rw [Utf8.encode_append, Utf8.encode_append]
  constructor
  · rw [firstOffset, Int.toNat_natCast, List.take_left, first]
  · rw [lastOffset, Int.toNat_natCast, ← List.append_assoc, List.take_left, last]
  · rw [firstOffset]
    exact Int.natCast_nonneg _
  · rw [firstOffset, lastOffset, List.length_append]
    omega
  · rw [lastOffset, List.length_append, List.length_append, List.length_append]
    omega
  · rw [firstOffset, lastOffset, Data.slice_middle, spelling]
  · rwa [spelling]
  · have whole : (Utf8.encode front ++ Utf8.encode piece).getLast? ≠ some lineFeed := by
      have found := List.getLast?_eq_some_getLast (encode_ne_nil some_)
      rwa [List.getLast?_append, found, Option.some_or, ← found]
    rw [lastOffset, Int.toNat_natCast, ← List.append_assoc, List.take_append_of_le_length (by omega),
      ← List.dropLast_eq_take, ← line_dropLast whole, Token.lastLine, last]

namespace Tiled

variable {before rest : List Char} {tokens : List Token}

theorem gapsFrom_cons (before gap piece rest : List Char) {token : Token} (tokens : List Token)
    (start : token.start = Position.start.advance (before ++ gap))
    (stop : token.stop = Position.start.advance (before ++ gap ++ piece)) :
    gapsFrom (Utf8.encode (before ++ (gap ++ (piece ++ rest)))) (Utf8.encode before).length
        (token :: tokens) =
      Utf8.encode gap :: gapsFrom (Utf8.encode (before ++ gap ++ piece ++ rest))
        (Utf8.encode (before ++ gap ++ piece)).length tokens := by
  have first : token.start.offset = (Utf8.encode before ++ Utf8.encode gap).length := by
    rw [start, Position.start_advance, Utf8.encode_append, Position.behind_offset]
  have last : token.stop.offset = (Utf8.encode (before ++ gap ++ piece)).length := by
    rw [stop, Position.start_advance, Position.behind_offset]
  have whole : before ++ (gap ++ (piece ++ rest)) = before ++ gap ++ piece ++ rest := by
    simp only [List.append_assoc]
  rw [gapsFrom, first, last, ← whole, Utf8.encode_append before, Utf8.encode_append gap,
    Data.slice_middle]

theorem gapsFrom_nil (before gap : List Char) :
    gapsFrom (Utf8.encode (before ++ gap)) (Utf8.encode before).length [] = [Utf8.encode gap] := by
  have middle := Data.slice_middle (Utf8.encode before) (Utf8.encode gap) []
  rw [List.append_nil] at middle
  rw [gapsFrom, Utf8.encode_append, middle]

/-- The gaps and the texts of the tokens give the text back. -/
theorem weave_eq (tiled : Tiled before tokens rest) :
    weave (gapsFrom (Utf8.encode (before ++ rest)) (Utf8.encode before).length tokens)
        (tokens.map (fun token => Utf8.encodeString token.text)) = Utf8.encode rest := by
  induction tiled with
  | last _ => simp only [gapsFrom_nil, List.map_nil, weave, List.flatten_singleton]
  | @next before gap piece rest token tokens _ _ _ text start stop _ ih =>
      rw [gapsFrom_cons before gap piece rest tokens start stop, List.map_cons, weave, ih,
        Utf8.encode_append, Utf8.encode_append, text, Utf8.encodeString, String.toList_ofList]

theorem silent_gaps (tiled : Tiled before tokens rest) :
    ∀ gap ∈ gapsFrom (Utf8.encode (before ++ rest)) (Utf8.encode before).length tokens,
      ∃ cs, gap = Utf8.encode cs ∧ Silent cs := by
  induction tiled with
  | last silent =>
      rw [gapsFrom_nil]
      rintro gap member
      exact ⟨_, List.mem_singleton.mp member, silent⟩
  | @next before gap piece rest token tokens silent _ _ _ start stop _ ih =>
      rw [gapsFrom_cons before gap piece rest tokens start stop]
      rintro bytes member
      rcases List.mem_cons.mp member with rfl | later
      · exact ⟨gap, rfl, silent⟩
      · exact ih bytes later

theorem liesIn (tiled : Tiled before tokens rest) :
    ∀ token ∈ tokens, LiesIn (Utf8.encode (before ++ rest)) token := by
  induction tiled with
  | last _ => simp
  | @next before gap piece rest token tokens _ some_ plain text start stop _ ih =>
      rintro other member
      rcases List.mem_cons.mp member with rfl | later
      · rw [← List.append_assoc]
        exact liesIn_of_tile some_ plain text start stop
      · have lies := ih other later
        simpa only [List.append_assoc] using lies

theorem start_ge (tiled : Tiled before tokens rest) :
    ∀ token ∈ tokens, ((Utf8.encode before).length : Int) ≤ token.start.offset := by
  induction tiled with
  | last _ => simp
  | @next before gap piece rest token tokens _ _ _ _ start _ _ ih =>
      rintro other member
      rcases List.mem_cons.mp member with rfl | later
      · rw [start, Position.start_advance, Utf8.encode_append, Position.behind_offset,
          List.length_append]
        omega
      · have bound := ih other later
        simp only [Utf8.encode_append, List.length_append] at bound
        omega

theorem ordered (tiled : Tiled before tokens rest) :
    tokens.Pairwise (fun a b => a.stop.offset ≤ b.start.offset) := by
  induction tiled with
  | last _ => exact .nil
  | @next before gap piece rest token tokens _ _ _ _ _ stop later ih =>
      refine .cons (fun other member => ?_) ih
      have bound := later.start_ge other member
      rwa [stop, Position.start_advance]

end Tiled

theorem lex_encode (cs : List Char) : lex (Utf8.encode cs) = scan .start [] cs := by
  rw [lex, Utf8.decode_encode]

theorem tokenize_encode (cs : List Char) :
    tokenize (Utf8.encode cs) = (scan .start [] cs).complete := by
  rw [tokenize, lex_encode]

theorem tokenize_eq_ok {source : Bytes} {tokens : List Token} :
    tokenize source = .ok tokens ↔
      ∃ cs, source = Utf8.encode cs ∧ scan .start [] cs = ⟨tokens, none⟩ := by
  constructor
  · intro accepted
    unfold tokenize lex at accepted
    cases decoded : Utf8.decode source with
    | error fault => simp [decoded, Lexing.complete] at accepted
    | ok cs =>
        rw [decoded] at accepted
        refine ⟨cs, (Utf8.encode_of_decode decoded).symm, ?_⟩
        cases scanned : scan .start [] cs with
        | mk found failure => cases failure <;> simp_all [Lexing.complete]
  · rintro ⟨cs, rfl, complete⟩
    rw [tokenize_encode, complete, Lexing.complete]

theorem tiled_of_tokenize {source : Bytes} {tokens : List Token}
    (accepted : tokenize source = .ok tokens) :
    ∃ cs, source = Utf8.encode cs ∧ Tiled [] tokens cs := by
  obtain ⟨cs, rfl, complete⟩ := tokenize_eq_ok.mp accepted
  obtain ⟨new, split, tiled⟩ := @scan_tiled _ _ _ _ [] complete rfl
  rw [List.reverse_nil, List.nil_append] at split
  exact ⟨cs, rfl, split ▸ tiled⟩

theorem Silent.tokenize {gap : List Char} (silent : Silent gap) :
    tokenize (Utf8.encode gap) = .ok [] :=
  tokenize_eq_ok.mpr ⟨gap, rfl, silent.empty .start⟩

/-- A text that lexes is its tokens and the gaps around them, in turn. The tokens lie where their
positions say, one behind the other, and a gap is made of blanks, splices and comments and gives no
token by itself. -/
theorem tokenize_tiles {source : Bytes} {tokens : List Token}
    (accepted : tokenize source = .ok tokens) :
    weave (gaps source tokens) (tokens.map (fun token => Utf8.encodeString token.text)) = source ∧
      (∀ token ∈ tokens, LiesIn source token) ∧
      tokens.Pairwise (fun a b => a.stop.offset ≤ b.start.offset) ∧
      ∀ gap ∈ gaps source tokens,
        (∃ cs, gap = Utf8.encode cs ∧ IsGap cs) ∧ tokenize gap = .ok [] := by
  obtain ⟨cs, rfl, tiled⟩ := tiled_of_tokenize accepted
  refine ⟨tiled.weave_eq, tiled.liesIn, tiled.ordered, fun gap member => ?_⟩
  obtain ⟨inner, rfl, silent⟩ := tiled.silent_gaps gap member
  exact ⟨⟨inner, rfl, silent.isGap⟩, silent.tokenize⟩

/-- A comment and a string with wider characters, a splice inside the string and one outside. -/
def mixedText : Bytes :=
  Utf8.encodeString "/*é*/ \"ü\\\n\"x\\\r\n//y"

theorem mixedText_tiles :
    weave (gaps mixedText
        [⟨.string, "\"ü\\\n\"", ⟨7, 1, 8⟩, ⟨13, 2, 2⟩⟩,
          ⟨.identifier, "x", ⟨13, 2, 2⟩, ⟨14, 2, 3⟩⟩])
      [Utf8.encodeString "\"ü\\\n\"", Utf8.encodeString "x"] = mixedText :=
  (@tokenize_tiles mixedText
    [⟨.string, "\"ü\\\n\"", ⟨7, 1, 8⟩, ⟨13, 2, 2⟩⟩,
      ⟨.identifier, "x", ⟨13, 2, 2⟩, ⟨14, 2, 3⟩⟩]
    (tokenize_eq_ok.mpr ⟨"/*é*/ \"ü\\\n\"x\\\r\n//y".toList, rfl, by cbv⟩)).1

end TokenSearch.Lexer
