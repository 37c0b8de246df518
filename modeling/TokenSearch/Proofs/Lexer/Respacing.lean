import TokenSearch.Proofs.Lexer.Separator

namespace TokenSearch.Lexer

open Text

/-! Blanks and comments do not matter. The tokens of a text, written down again in their order with
other separators between them, are read as the same tokens. Only a header name asks where lines end
around the directive in front of it. -/

/-- Gaps and texts in turn, with a gap at both ends. -/
def interleave : (gaps texts : List (List Char)) → List Char
  | gap :: gaps, text :: texts => gap ++ (text ++ interleave gaps texts)
  | gaps, _ => gaps.flatten

/-- The tokens that the identities give when each stands behind its gap, from `place` on. -/
def lay (place : Position) : List (List Char) → List Identity → List Token
  | gap :: gaps, identity :: identities =>
      let start := place.advance gap
      let stop := start.advance identity.text.toList
      ⟨identity.kind, identity.text, start, stop⟩ :: lay stop gaps identities
  | _, _ => []

theorem encode_flatten (pieces : List (List Char)) :
    Utf8.encode pieces.flatten = (pieces.map Utf8.encode).flatten := by
  induction pieces with
  | nil => rfl
  | cons piece pieces ih => rw [List.flatten_cons, Utf8.encode_append, ih, List.map_cons,
      List.flatten_cons]

theorem encode_interleave (gaps texts : List (List Char)) :
    Utf8.encode (interleave gaps texts) = weave (gaps.map Utf8.encode) (texts.map Utf8.encode) := by
  induction gaps generalizing texts with
  | nil => cases texts <;> rfl
  | cons gap gaps ih =>
      cases texts with
      | nil => exact encode_flatten (gap :: gaps)
      | cons text texts =>
          rw [interleave, Utf8.encode_append, Utf8.encode_append, ih, List.map_cons, List.map_cons,
            weave]

theorem identity_lay (place : Position) {gaps : List (List Char)} {identities : List Identity}
    (enough : identities.length ≤ gaps.length) :
    (lay place gaps identities).map Token.identity = identities := by
  induction identities generalizing place gaps with
  | nil => cases gaps <;> rfl
  | cons identity identities ih =>
      cases gaps with
      | nil => simp at enough
      | cons gap gaps =>
          rw [lay, List.map_cons, ih _ (by simpa using enough)]
          rfl

theorem stop_of_lay {place : Position} {gaps : List (List Char)} {identities : List Identity}
    {token : Token} (member : token ∈ lay place gaps identities) :
    token.stop = token.start.advance token.text.toList := by
  fun_induction lay place gaps identities with
  | case1 place gap gaps identity identities start stop ih =>
      rcases List.mem_cons.mp member with rfl | later
      · rfl
      · exact ih later
  | case2 => contradiction

theorem head_lay {place : Position} {gaps : List (List Char)} {identities : List Identity}
    {token : Token} (found : (lay place gaps identities)[0]? = some token) :
    ∃ gap, gaps[0]? = some gap ∧ token.start = place.advance gap := by
  fun_cases lay place gaps identities with
  | case1 gap gaps identity identities => 
      rw [lay, List.getElem?_cons_zero, Option.some.injEq] at found
      exact ⟨gap, rfl, by rw [← found]⟩
  | case2 => simp_all [lay]

theorem start_of_lay {place : Position} {gaps : List (List Char)} {identities : List Identity}
    {i : Nat} {before token : Token} (earlier : (lay place gaps identities)[i]? = some before)
    (found : (lay place gaps identities)[i + 1]? = some token) :
    ∃ gap, gaps[i + 1]? = some gap ∧ token.start = before.stop.advance gap := by
  induction i generalizing place gaps identities with
  | zero =>
      fun_cases lay place gaps identities with
      | case1 gap gaps identity identities => 
          rw [lay, List.getElem?_cons_zero, Option.some.injEq] at earlier
          rw [lay, List.getElem?_cons_succ] at found
          subst earlier
          exact head_lay found
      | case2 => simp_all [lay]
  | succ i ih =>
      fun_cases lay place gaps identities with
      | case1 gap gaps identity identities => 
          rw [lay, List.getElem?_cons_succ] at earlier found
          exact ih earlier found
      | case2 => simp_all [lay]

/-- A hash mark stands at `place` and an include directive behind it. -/
def Announced (identities : List Identity) (place : Nat) : Prop :=
  ∃ hash directive, identities[place]? = some hash ∧ identities[place + 1]? = some directive ∧
    hash.text ∈ hashMarks ∧ directive.kind = .identifier ∧ directive.text ∈ includeDirectives

/-- A line ends in the gap at `place`. -/
def HasBreak (gaps : List Bytes) (place : Nat) : Prop :=
  ∃ gap ∈ gaps[place]?, lineFeed ∈ gap

/-- The two tokens from `place` on start a line that the token behind them shares. -/
structure OnLine (gaps : List Bytes) (place : Nat) : Prop where
  first : 0 < place → HasBreak gaps place
  directive : ¬ HasBreak gaps (place + 1)
  name : ¬ HasBreak gaps (place + 2)

theorem lineFeed_mem_encode {cs : List Char} : lineFeed ∈ Utf8.encode cs ↔ '\n' ∈ cs := by
  induction cs with
  | nil => simp
  | cons c cs ih =>
      have single : lineFeed ∈ String.utf8EncodeChar c ↔ '\n' = c := by
        constructor
        · intro member
          exact (Position.eq_lineFeed_of_mem member).symm
        · rintro rfl
          decide
      rw [Utf8.encode_cons, List.mem_append, List.mem_cons, single, ih]

theorem hasBreak_encode {gaps : List (List Char)} {place : Nat} {gap : List Char}
    (found : gaps[place]? = some gap) : HasBreak (gaps.map Utf8.encode) place ↔ '\n' ∈ gap := by
  simp [HasBreak, found, lineFeed_mem_encode]

theorem line_advance (place : Position) (cs : List Char) :
    (place.advance cs).line = place.line + cs.count '\n' := by
  induction cs generalizing place with
  | nil => simp
  | cons c cs ih =>
      have first : place.advance (c :: cs) = (place.step c).advance cs := rfl
      rw [first, ih, Position.step]
      by_cases feed : c = '\n'
      · subst feed
        simp only [if_true, List.count_cons_self]
        omega
      · simp [feed]

theorem line_advance_eq_iff {place : Position} {cs : List Char} :
    (place.advance cs).line = place.line ↔ '\n' ∉ cs := by
  rw [line_advance, ← List.count_eq_zero]
  omega

theorem lineFeed_not_mem {text : String} (short : text ∈ hashMarks ∨ text ∈ includeDirectives) :
    '\n' ∉ text.toList := by
  have marks : ∀ text ∈ hashMarks ++ includeDirectives, '\n' ∉ text.toList := by decide
  exact marks text (List.mem_append.mpr short)

theorem reverse_take_succ {tokens : List Token} {i : Nat} {token : Token}
    (found : tokens[i]? = some token) :
    (tokens.take (i + 1)).reverse = token :: (tokens.take i).reverse := by
  rw [List.take_add_one, found]
  simp

theorem identity_of_lay {place : Position} {gaps : List (List Char)} {identities : List Identity}
    {i : Nat} {token : Token} (found : (lay place gaps identities)[i]? = some token) :
    identities[i]? = some token.identity := by
  fun_induction lay place gaps identities generalizing i with
  | case1 place gap gaps identity identities start stop =>
      rename_i ih
      cases i with
      | zero =>
          rw [List.getElem?_cons_zero, Option.some.injEq] at found
          subst found
          rfl
      | succ i => exact ih found
  | case2 => simp at found

/-- The lines that the lexer compares differ where a gap or a text between them holds a line feed. -/
theorem line_of_lay {gaps : List (List Char)} {identities : List Identity} {i : Nat}
    {before token : Token} (earlier : (lay .start gaps identities)[i]? = some before)
    (found : (lay .start gaps identities)[i + 1]? = some token) :
    before.stop.line = token.start.line ↔ ¬ HasBreak (gaps.map Utf8.encode) (i + 1) := by
  obtain ⟨gap, standing, start⟩ := start_of_lay earlier found
  rw [hasBreak_encode standing, start, eq_comm, line_advance_eq_iff]

theorem line_of_short {place : Position} {gaps : List (List Char)} {identities : List Identity}
    {token : Token} (member : token ∈ lay place gaps identities)
    (short : token.text ∈ hashMarks ∨ token.text ∈ includeDirectives) :
    token.stop.line = token.start.line := by
  rw [stop_of_lay member, line_advance_eq_iff]
  exact lineFeed_not_mem short

theorem firstOnLine_lay {gaps : List (List Char)} {identities : List Identity} {place : Nat}
    {hash : Token} (found : (lay .start gaps identities)[place]? = some hash) :
    (match ((lay .start gaps identities).take place).reverse with
      | [] => true
      | before :: _ => before.lastLine != hash.start.line) = true ↔
      (0 < place → HasBreak (gaps.map Utf8.encode) place) := by
  cases place with
  | zero => simp
  | succ place =>
      have bound := (List.getElem?_eq_some_iff.mp found).1
      have earlier :=
        List.getElem?_eq_getElem (show place < (lay .start gaps identities).length by omega)
      have shared := line_of_lay earlier found
      rw [reverse_take_succ earlier]
      simp [Token.lastLine, shared]

/-- Whether a header name is expected is seen from the identities and from where lines end. -/
theorem headerExpected_lay {gaps : List (List Char)} {identities : List Identity} {i : Nat}
    {token : Token} (found : (lay .start gaps identities)[i]? = some token) :
    headerExpected token.start.line ((lay .start gaps identities).take i).reverse = true ↔
      ∃ place, i = place + 2 ∧ Announced identities place ∧
        OnLine (gaps.map Utf8.encode) place := by
  have bound := (List.getElem?_eq_some_iff.mp found).1
  rcases i with _ | _ | place
  · simp [headerExpected]
  · have first := List.getElem?_eq_getElem (show 0 < (lay .start gaps identities).length by omega)
    rw [reverse_take_succ first]
    simp [headerExpected]
  · have atHash :=
      List.getElem?_eq_getElem (show place < (lay .start gaps identities).length by omega)
    have atDirective :=
      List.getElem?_eq_getElem (show place + 1 < (lay .start gaps identities).length by omega)
    generalize (lay .start gaps identities)[place] = hash at atHash
    generalize (lay .start gaps identities)[place + 1] = directive at atDirective
    have sharedHash := line_of_lay atHash atDirective
    have sharedName := line_of_lay atDirective found
    have hashLine := line_of_short (List.mem_of_getElem? atHash)
    have directiveLine := line_of_short (List.mem_of_getElem? atDirective)
    have announced : Announced identities place ↔ hash.text ∈ hashMarks ∧
        directive.kind = .identifier ∧ directive.text ∈ includeDirectives := by
      simp [Announced, identity_of_lay atHash, identity_of_lay atDirective, Token.identity]
    have first := firstOnLine_lay atHash
    have here : (∃ other, place + 1 + 1 = other + 2 ∧ Announced identities other ∧
        OnLine (gaps.map Utf8.encode) other) ↔
          Announced identities place ∧ OnLine (gaps.map Utf8.encode) place := by
      simp
    rw [reverse_take_succ atDirective, reverse_take_succ atHash, here, announced]
    simp only [headerExpected, Bool.and_eq_true, decide_eq_true_eq]
    constructor
    · rintro ⟨⟨⟨⟨⟨kind, text⟩, mark⟩, hashed⟩, named⟩, alone⟩
      refine ⟨⟨mark, kind, text⟩, ⟨first.mp alone, sharedHash.mp ?_, sharedName.mp named⟩⟩
      rw [hashLine (.inl mark), hashed, directiveLine (.inr text)]
    · rintro ⟨⟨mark, kind, text⟩, ⟨alone, hashed, named⟩⟩
      refine ⟨⟨⟨⟨⟨kind, text⟩, mark⟩, ?_⟩, sharedName.mpr named⟩, first.mpr alone⟩
      rw [← hashLine (.inl mark), sharedHash.mpr hashed, directiveLine (.inr text)]

/-- How a token is read on a line behind the tokens `seen`, the last one first: as a lexeme of its
own, or as a header name where one is expected. -/
inductive ReadsAs (line : Int) (seen : List Token) (identity : Identity) : Prop
  | plain {kind : LexemeKind} :
      lexeme identity.text.toList = some (kind, identity.text.toList.length) →
      classify kind identity.text = some identity.kind → ReadsAs line seen identity
  | header : headerExpected line seen = true →
      headerLength identity.text.toList = some identity.text.toList.length →
      identity.kind = .string → ReadsAs line seen identity

theorem isKept_of_classify {kind : LexemeKind} {text : String} {token : TokenKind}
    (classified : classify kind text = some token) : kind.isSkipped = false := by
  cases skipped : kind.isSkipped with
  | true => simp [classify_eq_none_iff.mpr skipped] at classified
  | false => rfl

theorem readsAs_of_nextLexeme {line : Int} {seen : List Token} {piece rest : List Char}
    {kind : LexemeKind} {token : TokenKind}
    (found : nextLexeme line seen (piece ++ rest) = some (kind, piece.length))
    (classified : classify kind (String.ofList piece) = some token) :
    ReadsAs line seen ⟨token, String.ofList piece⟩ := by
  have front : (piece ++ rest).take piece.length = piece := List.take_left
  rcases nextLexeme_cases found with plain | ⟨rfl, expected, header⟩
  · have alone := lexeme_take_of_kept plain (isKept_of_classify classified) (Nat.le_refl _)
    rw [front] at alone
    exact .plain (by simpa using alone) classified
  · have alone := headerLength_of_start header (by rw [front])
    exact .header expected (by simpa using alone) (by simpa [classify] using classified.symm)

/-- The lexemes that give a string do not start with a bracket. -/
theorem head_of_string {cs : List Char} {kind : LexemeKind} {n : Nat} {text : String}
    (found : lexeme cs = some (kind, n)) (classified : classify kind text = some .string) :
    cs.head? ≠ some '<' := by
  intro head
  cases lexeme_opens found with
  | string _ _ _ counted =>
      obtain ⟨_, _, opened, _⟩ := stringLength_eq_some.mp counted
      obtain ⟨c, first, start⟩ := opening_head (by decide) opened
      rw [head, Option.some.injEq] at first
      subst first
      rcases start with same | letter <;> contradiction
  | word =>
      rw [classify, Option.some.injEq] at classified
      split at classified <;> contradiction
  | space | lineComment | blockComment | char | number | punctuator => simp [classify] at classified

/-- A token is read again in front of a blank, unless it is a bracket where a header name could
stand. -/
theorem ReadsAs.again {line : Int} {seen : List Token} {identity : Identity} {rest : List Char}
    (reads : ReadsAs line seen identity)
    (named : identity.text.toList.head? = some '<' → headerExpected line seen = true →
      identity.kind = .string) (parted : Parted rest) :
    ∃ kind, identity.text.toList ≠ [] ∧ classify kind identity.text = some identity.kind ∧
      nextLexeme line seen (identity.text.toList ++ rest) = some (kind, identity.text.toList.length) := by
  cases reads with
  | @plain kind found classified =>
      have filled : identity.text.toList ≠ [] := by
        intro empty
        rw [empty] at found
        contradiction
      have again := lexeme_append filled found (isKept_of_classify classified) parted
      refine ⟨kind, filled, classified, ?_⟩
      rw [nextLexeme, List.head?_append_of_ne_nil _ filled]
      by_cases bracket : identity.text.toList.head? = some '<'
      · have unexpected : headerExpected line seen = false := by
          by_contra expected
          rw [Bool.not_eq_false] at expected
          rw [named bracket expected] at classified
          exact head_of_string found classified bracket
        simp [unexpected, again]
      · simp [bracket, again]
  | header expected found string =>
      have again : headerLength (identity.text.toList ++ rest) = some identity.text.toList.length :=
        headerLength_of_start found (by simp)
      obtain ⟨name, behind, whole, _⟩ := headerLength_eq_some.mp found
      refine ⟨.header, by simp [whole], by simp [classify, string], ?_⟩
      have head : (identity.text.toList ++ rest).head? = some '<' := by simp [whole]
      simp [nextLexeme, head, expected, again]

/-- Every token is read as it stands, behind those before it. -/
def Legible (tokens : List Token) (behind : Nat) : Prop :=
  ∀ i token, behind ≤ i → tokens[i]? = some token →
    ReadsAs token.start.line (tokens.take i).reverse token.identity

/-- A scan that comes to the end has laid out its tokens behind the gaps of the text. -/
theorem lay_of_scan {place base : Position} {seen tokens : List Token} {cs gap : List Char}
    (complete : scan place seen cs = ⟨tokens, none⟩) (here : place = base.advance gap) :
    ∃ gaps identities, gaps.length = identities.length + 1 ∧
      gap ++ cs = interleave gaps (identities.map (fun identity => identity.text.toList)) ∧
      tokens = seen.reverse ++ lay base gaps identities ∧ Legible tokens seen.length := by
  -- the gap collects what was skipped since the last token, which ended at the base
  fun_induction scan place seen cs generalizing base gap with
  | case1 place seen =>
      cases complete
      refine ⟨[gap], [], rfl, by simp [interleave], by simp [lay], ?_⟩
      intro i token behind found
      rw [List.getElem?_eq_none (by simpa using behind)] at found
      contradiction
  | case2 place seen c rest kind n found piece after text =>
      rename_i skipped ih
      have whole : piece ++ rest.drop n = c :: rest := by simp [piece]
      obtain ⟨gaps, identities, count, same, split, legible⟩ :=
        @ih base (gap ++ piece) complete (by simp [after, here])
      refine ⟨gaps, identities, count, ?_, split, legible⟩
      rw [← same, List.append_assoc, whole]
  | case3 place seen c rest kind n found piece after text token =>
      rename_i classified ih
      have whole : piece ++ rest.drop n = c :: rest := by simp [piece]
      have size : piece.length = n + 1 := by
        have bound := (nextLexeme_shape found (isKept_of_classify classified)).1
        simp only [List.length_cons] at bound
        simp only [piece, List.length_cons, List.length_take]
        omega
      rw [← whole, ← Nat.add_one, ← size] at found
      obtain ⟨gaps, identities, count, same, split, legible⟩ := @ih after [] complete rfl
      refine ⟨gap :: gaps, ⟨token, text⟩ :: identities, by simp [count], ?_, ?_, ?_⟩
      · rw [List.map_cons, interleave, ← same, List.nil_append, String.toList_ofList, whole]
      · rw [split, lay, ← here, String.toList_ofList, List.reverse_cons, List.append_assoc]
        rfl
      · intro i other behind standing
        rcases Nat.eq_or_lt_of_le behind with rfl | later
        · have first : tokens.take seen.length = seen.reverse := by
            rw [split, List.reverse_cons, List.append_assoc, List.take_left' (by simp)]
          have isToken : other = ⟨token, text, place, after⟩ := by
            rw [split, List.reverse_cons, List.append_assoc,
              List.getElem?_append_right (by simp)] at standing
            simpa [eq_comm] using standing
          rw [isToken, first, List.reverse_reverse]
          exact readsAs_of_nextLexeme found classified
        · exact legible i other later standing
  | case4 => simp at complete

/-- The gaps behind tokens. Each keeps the next token apart; the last one may be missing. -/
def Spaced : List (List Char) → Prop
  | [] => True
  | [last] => last = [] ∨ IsSeparator last
  | gap :: gaps => IsSeparator gap ∧ Spaced gaps

theorem Spaced.filler {gap : List Char} {gaps : List (List Char)} (spaced : Spaced (gap :: gaps)) :
    IsFiller gap := by
  cases gaps with
  | nil =>
      rcases spaced with rfl | separator
      · exact ⟨[], by simp, rfl⟩
      · exact separator.filler
  | cons next gaps => exact spaced.1.filler

theorem Spaced.tail {gap : List Char} {gaps : List (List Char)} (spaced : Spaced (gap :: gaps)) :
    Spaced gaps := by
  cases gaps with
  | nil => trivial
  | cons next gaps => exact spaced.2

theorem Spaced.parted {gap : List Char} {gaps texts : List (List Char)}
    (spaced : Spaced (gap :: gaps)) (count : gaps.length = texts.length) :
    Parted (interleave (gap :: gaps) texts) := by
  cases gaps with
  | nil =>
      rw [List.eq_nil_of_length_eq_zero count.symm]
      rcases spaced with rfl | separator
      · exact .nil
      · exact separator.parted_append [].flatten
  | cons next gaps =>
      cases texts with
      | nil => contradiction
      | cons text texts => exact spaced.1.parted_append _

/-- A scan over tokens that stand apart finds them. -/
theorem scan_interleave {gap : List Char} {gaps : List (List Char)} {identities : List Identity}
    {place : Position} {seen tokens : List Token} (filler : IsFiller gap) (spaced : Spaced gaps)
    (count : gaps.length = identities.length)
    (split : tokens = seen.reverse ++ lay place (gap :: gaps) identities)
    (legible : Legible tokens 0)
    (named : ∀ i token, tokens[i]? = some token → token.text.toList.head? = some '<' →
      headerExpected token.start.line (tokens.take i).reverse = true → token.kind = .string) :
    scan place seen
        (interleave (gap :: gaps) (identities.map (fun identity => identity.text.toList))) =
      ⟨tokens, none⟩ := by
  induction identities generalizing gap gaps place seen with
  | nil =>
      rw [List.eq_nil_of_length_eq_zero count]
      have alone : interleave [gap] [] = gap ++ [] := by simp [interleave]
      rw [List.map_nil, alone, filler.scan_eq, scan, split, lay, List.append_nil]
      simp
  | cons identity identities ih =>
      cases gaps with
      | nil => contradiction
      | cons next gaps =>
          have size : gaps.length = identities.length := by simpa using count
          have standing : tokens[seen.length]? = some ⟨identity.kind, identity.text,
              place.advance gap, (place.advance gap).advance identity.text.toList⟩ := by
            rw [split, List.getElem?_append_right (by simp)]
            simp [lay]
          have first : tokens.take seen.length = seen.reverse := by
            rw [split, List.take_left' (by simp)]
          have reads : ReadsAs (place.advance gap).line (tokens.take seen.length).reverse identity :=
            legible _ _ (Nat.zero_le _) standing
          have string := named _ _ standing
          rw [first, List.reverse_reverse] at reads string
          have parted : Parted (interleave (next :: gaps)
              (identities.map (fun identity => identity.text.toList))) :=
            spaced.parted (by simpa using size)
          obtain ⟨kind, filled, classified, found⟩ := reads.again string parted
          rw [List.map_cons, interleave, filler.scan_eq]
          rw [scan_kept filled found (by simpa using classified)]
          refine ih spaced.filler spaced.tail size ?_
          rw [split, lay]
          simp

theorem gapsFrom_lay (before : List Char) {gaps : List (List Char)} {identities : List Identity}
    (count : gaps.length = identities.length + 1) :
    gapsFrom (Utf8.encode (before ++
          interleave gaps (identities.map (fun identity => identity.text.toList))))
        (Utf8.encode before).length (lay (Position.start.advance before) gaps identities) =
      gaps.map Utf8.encode := by
  induction identities generalizing before gaps with
  | nil =>
      obtain ⟨gap, rfl⟩ := List.length_eq_one_iff.mp count
      have alone : interleave [gap] [] = gap := by simp [interleave]
      rw [List.map_nil, alone, lay, Tiled.gapsFrom_nil]
      · rfl
      · simp
  | cons identity identities ih =>
      cases gaps with
      | nil => contradiction
      | cons gap gaps =>
          have later := ih (before ++ gap ++ identity.text.toList) (by simpa using count)
          rw [List.map_cons, interleave, lay, Tiled.gapsFrom_cons before gap identity.text.toList]
          · simp only [Position.advance_append] at later
            rw [List.map_cons, later]
          · simp
          · simp

theorem laid_of_tokenize {source : Bytes} {tokens : List Token}
    (accepted : tokenize source = .ok tokens) :
    ∃ gaps', gaps source tokens = gaps'.map Utf8.encode ∧ gaps'.length = tokens.length + 1 ∧
      tokens = lay .start gaps' (tokens.map Token.identity) ∧ Legible tokens 0 := by
  obtain ⟨cs, rfl, complete⟩ := tokenize_eq_ok.mp accepted
  obtain ⟨gaps', identities, count, rfl, rfl, legible⟩ :=
    @lay_of_scan _ .start _ _ _ [] complete rfl
  have same := identity_lay .start (show identities.length ≤ gaps'.length by omega)
  have length := congrArg List.length same
  rw [List.length_map] at length
  refine ⟨gaps', gapsFrom_lay [] count, ?_, ?_, legible⟩
  · rw [List.reverse_nil, List.nil_append, length, count]
  · rw [List.reverse_nil, List.nil_append, same]

/-- The texts of `tokens` may be written down again with these separators: the first one before the
first token, the others each behind a token. Where a header name may stand, it stands, and around
its directive lines end where they end in `source`. -/
structure Respaced (source : Bytes) (tokens : List Token) (separators : List (List Char)) :
    Prop where
  count : separators.length = tokens.length + 1
  first : ∀ gap ∈ separators.head?, IsFiller gap
  others : Spaced separators.tail
  names : ∀ place name, Announced (tokens.map Token.identity) place →
    tokens[place + 2]? = some name → name.text.toList.head? = some '<' →
    name.kind = .string ∧ ∀ gap, place ≤ gap → 0 < gap → gap ≤ place + 2 →
      (HasBreak (gaps source tokens) gap ↔ HasBreak (separators.map Utf8.encode) gap)

/-- Tokens that are read in one layout are read in another one that breaks the same lines around
include directives. -/
theorem Legible.relaid {former latter : List (List Char)} {identities : List Identity}
    (legible : Legible (lay .start former identities) 0)
    (enough : identities.length ≤ former.length)
    (names : ∀ place name, Announced identities place → identities[place + 2]? = some name →
      name.text.toList.head? = some '<' → ∀ gap, place ≤ gap → 0 < gap → gap ≤ place + 2 →
        (HasBreak (former.map Utf8.encode) gap ↔ HasBreak (latter.map Utf8.encode) gap)) :
    Legible (lay .start latter identities) 0 := by
  intro i token behind found
  have kept := identity_of_lay found
  obtain ⟨old, standing, alike⟩ :
      ∃ old, (lay .start former identities)[i]? = some old ∧ old.identity = token.identity := by
    rwa [← Option.map_eq_some_iff, ← List.getElem?_map, identity_lay .start enough]
  have reads := legible i old behind standing
  rw [alike] at reads
  cases reads with
  | plain alone classified => exact .plain alone classified
  | header expected alone string =>
      obtain ⟨place, rfl, announced, onLine⟩ := (headerExpected_lay standing).mp expected
      obtain ⟨_, _, whole, _⟩ := headerLength_eq_some.mp alone
      have same := names place token.identity announced kept (by simp [whole])
      refine .header ((headerExpected_lay found).mpr ⟨place, rfl, announced, ?_, ?_, ?_⟩) alone string
      · intro behindOther
        exact (same place (by omega) behindOther (by omega)).mp (onLine.first behindOther)
      · intro broken
        exact onLine.directive ((same (place + 1) (by omega) (by omega) (by omega)).mpr broken)
      · intro broken
        exact onLine.name ((same (place + 2) (by omega) (by omega) (by omega)).mpr broken)

/-- Blanks and comments do not matter: the tokens of a text, written down with other separators, are
found again with their classes and texts. -/
theorem tokenize_respaced {source : Bytes} {tokens : List Token} {separators : List (List Char)}
    (accepted : tokenize source = .ok tokens) (respaced : Respaced source tokens separators) :
    ∃ others, others.map Token.identity = tokens.map Token.identity ∧
      tokenize (weave (separators.map Utf8.encode)
        (tokens.map (fun token => Utf8.encodeString token.text))) = .ok others := by
  obtain ⟨former, breaks, size, laid, legible⟩ := laid_of_tokenize accepted
  obtain ⟨count, first, spaced, names⟩ := respaced
  rw [breaks] at names
  generalize identified : tokens.map Token.identity = identities at laid names
  have length : tokens.length = identities.length := by rw [← identified, List.length_map]
  have named {place : Nat} {name : Identity} (announced : Announced identities place)
      (found : identities[place + 2]? = some name) (bracket : name.text.toList.head? = some '<') :
      name.kind = .string ∧ ∀ gap, place ≤ gap → 0 < gap → gap ≤ place + 2 →
        (HasBreak (former.map Utf8.encode) gap ↔ HasBreak (separators.map Utf8.encode) gap) := by
    rw [← identified, List.getElem?_map, Option.map_eq_some_iff] at found
    obtain ⟨token, standing, rfl⟩ := found
    exact names place token announced standing bracket
  have again : Legible (lay .start separators identities) 0 := by
    rw [laid] at legible
    apply legible.relaid (by omega)
    intro place name announced found bracket
    exact (named announced found bracket).2
  cases separators with
  | nil => contradiction
  | cons gap separators =>
      have enough : separators.length = identities.length := by simpa [length] using count
      refine ⟨lay .start (gap :: separators) identities, ?_, tokenize_eq_ok.mpr ⟨_, ?_,
        scan_interleave (first gap rfl) spaced enough rfl again ?_⟩⟩
      · exact identity_lay .start (by simp [enough])
      · rw [encode_interleave, ← identified, List.map_map, List.map_map]
        rfl
      · intro i token found bracket expected
        obtain ⟨place, rfl, announced, _⟩ := (headerExpected_lay found).mp expected
        exact (named announced (identity_of_lay found) bracket).1

/-- An include line and a word behind it. -/
def includeText : Bytes := Utf8.encodeString "#include <a>\nx"

def includeTokens : List Token :=
  [⟨.punctuator, "#", ⟨0, 1, 1⟩, ⟨1, 1, 2⟩⟩, ⟨.identifier, "include", ⟨1, 1, 2⟩, ⟨8, 1, 9⟩⟩,
    ⟨.string, "<a>", ⟨9, 1, 10⟩, ⟨12, 1, 13⟩⟩, ⟨.identifier, "x", ⟨13, 2, 1⟩, ⟨14, 2, 2⟩⟩]

/-- The line keeps its words together; comments and splices go where lines may end. -/
def includeSeparators : List (List Char) :=
  ["//s\n".toList, " /**/".toList, "\t".toList, "\n\\\n//\\\n\n".toList, []]

theorem includeSeparators_spaced : Spaced includeSeparators.tail := by
  have splitComment : SeparatorPiece ['/', '/', '\\', '\n', '\n'] :=
    @SeparatorPiece.lineComment ['\\', '\n'] (.taken .nil) (by decide) (by decide)
  refine ⟨⟨⟨[[' '], ['/', '*', '*', '/']], ?_, rfl⟩, ' ', rfl, by decide⟩,
    ⟨⟨[['\t']], ?_, rfl⟩, '\t', rfl, by decide⟩,
    ⟨⟨[['\n'], ['\\', '\n'], ['/', '/', '\\', '\n', '\n']], ?_, rfl⟩, '\n', rfl, by decide⟩, .inl rfl⟩
  · simpa using ⟨.blank (by decide), @SeparatorPiece.blockComment [] (by decide)⟩
  · simpa using .blank (by decide)
  · simpa using ⟨.blank (by decide), .splice, splitComment⟩

theorem includeSeparators_respaced : Respaced includeText includeTokens includeSeparators where
  count := rfl
  first := by
    rintro gap ⟨⟩
    refine ⟨[['/', '/', 's', '\n']], ?_, rfl⟩
    have text : LineText ['s'] := .plain (by decide) (by decide) .nil
    simpa using SeparatorPiece.lineComment text (by decide) (by decide)
  others := includeSeparators_spaced
  names := by
    rintro place name ⟨hash, directive, atHash, atDirective, mark, _⟩ standing _
    have only : place = 0 := by
      rcases place with _ | _ | place
      · rfl
      · cases atHash
        contradiction
      · have beyond : includeTokens.length ≤ place + 2 + 2 := by simp [includeTokens]
        rw [List.getElem?_eq_none beyond] at standing
        contradiction
    subst only
    cases standing
    refine ⟨rfl, ?_⟩
    intro gap _ positive bound
    have former : gaps includeText includeTokens =
        [[], [], [' '], ['\n'], []].map Utf8.encode := by cbv
    rw [former]
    interval_cases gap
    · rw [hasBreak_encode rfl, @hasBreak_encode includeSeparators 1 _ rfl]
      decide
    · rw [hasBreak_encode rfl, @hasBreak_encode includeSeparators 2 _ rfl]
      decide

theorem includeText_respaced :
    ∃ others, others.map Token.identity = includeTokens.map Token.identity ∧
      tokenize (weave (includeSeparators.map Utf8.encode)
        (includeTokens.map (fun token => Utf8.encodeString token.text))) = .ok others :=
  tokenize_respaced (tokenize_eq_ok.mpr ⟨"#include <a>\nx".toList, rfl, by cbv⟩)
    includeSeparators_respaced

/-- Not every comment is gone over: one that is not UTF-8 fails the whole text, and a backslash that
is itself taken does not take the line feed behind it. -/
theorem comments_not_skipped :
    tokenize (Utf8.encodeString "x y") =
        .ok [⟨.identifier, "x", ⟨0, 1, 1⟩, ⟨1, 1, 2⟩⟩, ⟨.identifier, "y", ⟨2, 1, 3⟩, ⟨3, 1, 4⟩⟩] ∧
      tokenize [0x78, 0x20, 0x2F, 0x2A, 0xFF, 0x2A, 0x2F, 0x20, 0x79] =
        .error (errorAt ⟨4, 1, 5⟩ .invalidUtf8) ∧
      tokenize (Utf8.encodeString "x // a\\\\\nb\ny") =
        .ok [⟨.identifier, "x", ⟨0, 1, 1⟩, ⟨1, 1, 2⟩⟩, ⟨.identifier, "b", ⟨9, 2, 1⟩, ⟨10, 2, 2⟩⟩,
          ⟨.identifier, "y", ⟨11, 3, 1⟩, ⟨12, 3, 2⟩⟩] := by
  refine ⟨tokenize_eq_ok.mpr ⟨"x y".toList, rfl, by cbv⟩, ?_,
    tokenize_eq_ok.mpr ⟨"x // a\\\\\nb\ny".toList, rfl, by cbv⟩⟩
  rfl

end TokenSearch.Lexer
