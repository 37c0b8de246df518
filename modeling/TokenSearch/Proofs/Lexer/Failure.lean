import TokenSearch.Proofs.Lexer.Joined
import TokenSearch.Proofs.Lexer.Stuck
import TokenSearch.Proofs.Lexer.Trail
import TokenSearch.Proofs.Text.Malformed
import TokenSearch.Proofs.Text.RawText

/-! Where lexing fails, and why. -/

namespace TokenSearch

open Text

def LexError.place (error : LexError) : Position :=
  ⟨error.offset, error.line, error.column⟩

namespace Lexer

/-- Lexing gives no token, and fails behind the bytes `before` because what follows is no text. -/
structure Refused (lexing : Lexing) (before : Bytes) : Prop where
  silent : lexing.tokens = []
  fails : ∃ error, lexing.complete = .error error ∧ error.place = .behind before ∧
    error.cause.message = "invalid UTF-8 byte sequence"

theorem refused_errorAt {place : Position} {before : Bytes} (here : place = .behind before) :
    Refused ⟨[], some (errorAt place .invalidUtf8)⟩ before :=
  ⟨rfl, _, rfl, here, rfl⟩

/-- Lexing a text breaks off behind `before` with an error. The tokens found are the tokens of what
is before, and the error tells the one reason why no lexeme starts behind it. -/
structure BreaksOff (source before : Bytes) (error : LexError) : Prop where
  place : error.place = .behind before
  accepted : tokenize before = .ok (lex source).tokens
  stuck : ∃ rest, source = before ++ Utf8.encode rest ∧
    ∀ words, Stuck rest words ↔ words = error.cause.message

theorem refused_of_malformed {source : Bytes} (malformed : ¬ Utf8.WellFormed source) :
    ∃ before, Utf8.LongestText before source ∧ Refused (lex source) before := by
  obtain ⟨fault, failed⟩ := Utf8.decode_eq_error malformed
  refine ⟨source.take fault.offset, Utf8.longestText_of_error failed, ?_⟩
  rw [lex, failed]
  exact refused_errorAt (placeAfter_eq _)

theorem lexText_ofString (text : String) : lexText (.ofString text) = lex (Utf8.encodeString text) := by
  rw [lexText, RawText.hasSurrogate_ofString, RawText.sound_ofString, lex, Utf8.encodeString,
    Utf8.decode_encode]
  rfl

theorem refused_of_surrogate (text : String) {point : UInt32}
    (surrogate : RawText.isSurrogate point = true) (more : List UInt32) :
    Refused (lexText (RawText.ofString text ++ (⟨point :: more⟩ : RawText)))
      (Utf8.encodeString text) := by
  rw [lexText, RawText.hasSurrogate_append text surrogate, RawText.sound_append text surrogate]
  exact refused_errorAt (Position.start_advance text.toList)

theorem breaksOff_of_error {source : Bytes} (formed : Utf8.WellFormed source) {error : LexError}
    (failed : tokenize source = .error error) : ∃ before, BreaksOff source before error := by
  obtain ⟨cs, rfl⟩ := formed
  obtain ⟨t, reached, stops⟩ := (Stand.atStart cs).leads_to_stop
  have scanned := reached.lex_eq
  rw [tokenize, scanned] at failed
  rcases stops with ⟨_, all⟩ | ⟨filled, stuck, broken⟩
  · simp [all, Lexing.complete] at failed
  · rw [broken] at failed scanned
    -- the same way leads over the text in front of the fault alone, to its end
    obtain ⟨before, whole, there, alone⟩ := reached.cut
    cases failed
    refine ⟨Utf8.encode before, ?_, ?_, t.rest, ?_, ?_⟩
    · exact there.trans (Position.start_advance before)
    · rw [scanned, tokenize_eq_ok]
      refine ⟨before, rfl, alone.run_eq.trans ?_⟩
      simp [Stand.run, scan]
    · rw [← Utf8.encode_append]
      exact congrArg Utf8.encode whole
    · intro words
      rw [stuck_iff]
      have none_ := lexeme_of_nextLexeme_eq_none stuck
      simp [filled, none_, errorAt]

theorem nextLexeme_of_stuck {cs : List Char} {words : String} (stuck : Stuck cs words) (line : Int)
    (seen : List Token) : nextLexeme line seen cs = none := by
  obtain ⟨_, none_, _⟩ := stuck.diagnosed
  have plain : cs.head? ≠ some '<' := by
    cases stuck with
    | unexpected _ nothing =>
        intro bracket
        cases bracket
        exact nothing.punctuator ['<'] (by decide) ⟨_, rfl⟩
    | _ => simp
  rw [nextLexeme, if_neg (by simp [plain]), none_]

/-- A scan that comes to stand where no lexeme starts fails there, and tells why. -/
theorem tokenize_stuck {cs : List Char} {t : Stand} {words : String}
    (reached : (Stand.atStart cs).Leads t) (stuck : Stuck t.rest words) :
    ∃ error, tokenize (Utf8.encode cs) = .error error ∧ error.place = t.place ∧
      error.cause.message = words := by
  have halts : t.next = none := nextLexeme_of_stuck stuck _ _
  obtain ⟨filled, _, rfl⟩ := stuck_iff.mp stuck
  rw [tokenize, reached.lex_eq]
  rcases t.run_cases with ⟨ended, _⟩ | ⟨_, _, goes⟩ | ⟨_, _, broken⟩
  · exact absurd ended filled
  · rw [halts] at goes
    contradiction
  · exact ⟨errorAt t.place (diagnose t.rest), by rw [broken]; rfl, rfl, rfl⟩

/-- A text fails only where a scan of it comes to stand where no lexeme starts. -/
theorem tokenize_fails_iff {cs : List Char} : (∃ error, tokenize (Utf8.encode cs) = .error error) ↔
    ∃ t words, (Stand.atStart cs).Leads t ∧ Stuck t.rest words := by
  constructor
  · intro failing
    obtain ⟨error, failed⟩ := failing
    obtain ⟨t, reached, ⟨_, all⟩ | ⟨filled, stuck, _⟩⟩ := (Stand.atStart cs).leads_to_stop
    · rw [tokenize, reached.lex_eq, all] at failed
      contradiction
    · exact ⟨t, _, reached, stuck_iff.mpr ⟨filled, lexeme_of_nextLexeme_eq_none stuck, rfl⟩⟩
  · intro stands
    obtain ⟨t, words, reached, stuck⟩ := stands
    obtain ⟨error, failed, _⟩ := tokenize_stuck reached stuck
    exact ⟨error, failed⟩

/-- Bytes that are no text fail behind the longest text that starts them, and text with a surrogate
fails in front of its first one, without a token. Any other text is lexed as its bytes. Where a text
fails, that is at the first place where no lexeme starts, behind the tokens of what is before. -/
theorem lex_locates_faults :
    (∀ source, ¬ Utf8.WellFormed source →
      ∃ before, Utf8.LongestText before source ∧ Refused (lex source) before) ∧
    (∀ source : RawText, (∀ point ∈ source.points, point.toNat < 0x110000) →
      (∃ text, source = .ofString text ∧ lexText source = lex (Utf8.encodeString text)) ∨
      ∃ text point more, RawText.isSurrogate point = true ∧
        source = .ofString text ++ (⟨point :: more⟩ : RawText) ∧
        Refused (lexText source) (Utf8.encodeString text)) ∧
    ∀ source error, Utf8.WellFormed source → tokenize source = .error error →
      ∃ before, BreaksOff source before error := by
  refine ⟨fun source malformed => refused_of_malformed malformed, ?_,
    fun source error formed failed => breaksOff_of_error formed failed⟩
  intro source valid
  rcases source.ofString_or_surrogate valid with ⟨text, rfl⟩ | ⟨text, point, more, surrogate, rfl⟩
  · exact .inl ⟨text, rfl, lexText_ofString text⟩
  · exact .inr ⟨text, point, more, surrogate, rfl, refused_of_surrogate text surrogate more⟩

/-- A character literal that stays open on the second line. -/
def openText : Bytes :=
  Utf8.encodeString "/*é*/\n 'b"

/-- A character that lacks its second byte. -/
def brokenText : Bytes :=
  [0x61, 0x0A, 0xC3, 0x28]

theorem brokenText_malformed : ¬ Utf8.WellFormed brokenText := by
  intro formed
  obtain ⟨text, same⟩ := formed
  have decoded : Utf8.decode brokenText = .ok text := by rw [← same, Utf8.decode_encode]
  have refused : Utf8.decode brokenText = .error ⟨2, 0xC3, 1, .continuation⟩ := by cbv
  rw [refused] at decoded
  contradiction

theorem faults_located :
    (∃ before, Utf8.LongestText before brokenText ∧ Refused (lex brokenText) before) ∧
    ((∃ text, (⟨[0x61, 0xD800]⟩ : RawText) = .ofString text ∧
        lexText ⟨[0x61, 0xD800]⟩ = lex (Utf8.encodeString text)) ∨
      ∃ text point more, RawText.isSurrogate point = true ∧
        (⟨[0x61, 0xD800]⟩ : RawText) = .ofString text ++ (⟨point :: more⟩ : RawText) ∧
        Refused (lexText ⟨[0x61, 0xD800]⟩) (Utf8.encodeString text)) ∧
    ∃ before, BreaksOff openText before ⟨.unterminatedChar, 8, 2, 2, none⟩ := by
  refine ⟨lex_locates_faults.1 brokenText brokenText_malformed,
    lex_locates_faults.2.1 ⟨[0x61, 0xD800]⟩ ?_, lex_locates_faults.2.2 openText _ ?_ ?_⟩
  · simp
  · exact ⟨"/*é*/\n 'b".toList, rfl⟩
  · cbv

end Lexer

end TokenSearch
