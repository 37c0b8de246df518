import TokenSearch.Lexer.Error
import TokenSearch.Lexer.Lexeme
import TokenSearch.Text.RawText
import TokenSearch.Token

namespace TokenSearch.Lexer

/-! The token stream of a text. The whole text must be UTF-8; it is then cut into lexemes from left
to right, and every lexeme but blanks and comments is a token. -/

def keywords : List String :=
  ["auto", "break", "case", "char", "const", "continue", "default", "do", "double", "else", "enum",
    "extern", "float", "for", "goto", "if", "inline", "int", "long", "register", "restrict",
    "return", "short", "signed", "sizeof", "static", "struct", "switch", "typedef", "union",
    "unsigned", "void", "volatile", "while", "_Alignas", "_Alignof", "_Atomic", "_Bool",
    "_Complex", "_Generic", "_Imaginary", "_Noreturn", "_Static_assert", "_Thread_local"]

def includeDirectives : List String := ["include", "include_next", "import"]

def hashMarks : List String := ["#", "%:"]

/-- The class of the token that a lexeme gives, if it gives one. -/
def classify (kind : LexemeKind) (text : String) : Option TokenKind :=
  match kind with
  | .space | .lineComment | .blockComment => none
  | .word => some (if text ∈ keywords then .keyword else .identifier)
  | .header | .string => some .string
  | .char => some .char
  | .number => some .number
  | .punctuator => some .punctuator

/-- Whether a header name may stand on line `line` behind the tokens `seen`, the last one first: a
hash mark and an include directive stand on that line, and no token before them ends on it. -/
def headerExpected (line : Int) : List Token → Bool
  | directive :: hash :: earlier =>
      directive.kind = .identifier && directive.text ∈ includeDirectives &&
      hash.text ∈ hashMarks &&
      hash.start.line = directive.stop.line && directive.stop.line = line &&
      (match earlier with
        | [] => true
        | before :: _ => before.lastLine != hash.start.line)
  | _ => false

/-- The next lexeme at a place, given the tokens before it. -/
def nextLexeme (line : Int) (seen : List Token) (cs : List Char) : Option (LexemeKind × Nat) :=
  if cs.head? = some '<' && headerExpected line seen then
    match headerLength cs with
    | some n => some (.header, n)
    | none => lexeme cs
  else lexeme cs

/-- Why no lexeme starts a text. -/
def diagnose (cs : List Char) : LexCause :=
  if opensBlockComment cs then .unterminatedComment
  else if (opening '"' cs).isSome then .unterminatedString
  else
    match opening '\'' cs with
    | some n => if (cs.drop n).head? = some '\'' then .emptyChar else .unterminatedChar
    | none =>
        match cs with
        | c :: _ => .unexpected ((String.utf8EncodeChar c).headD 0)
        | [] => .unexpected 0

def errorAt (place : Position) (cause : LexCause) : LexError :=
  ⟨cause, place.offset, place.line, place.column, none⟩

/-- What lexing gives: the tokens up to the end or to the first fault, and that fault. -/
structure Lexing where
  tokens : List Token
  failure : Option LexError
deriving Repr

/-- Lexes a text that stands at `place` behind the tokens `seen`, the last one first. -/
def scan (place : Position) (seen : List Token) : List Char → Lexing
  | [] => ⟨seen.reverse, none⟩
  | c :: rest =>
      match nextLexeme place.line seen (c :: rest) with
      | some (kind, n + 1) =>
          let piece := c :: rest.take n
          let after := place.advance piece
          let text := String.ofList piece
          match classify kind text with
          | none => scan after seen (rest.drop n)
          | some token => scan after (⟨token, text, place, after⟩ :: seen) (rest.drop n)
      | _ => ⟨seen.reverse, some (errorAt place (diagnose (c :: rest)))⟩
termination_by cs => cs.length
decreasing_by
  all_goals
    simp only [List.length_drop, List.length_cons]
    omega

/-- The place behind the bytes `bytes`, which may be any bytes. -/
def placeAfter (bytes : Bytes) : Position :=
  bytes.foldl
    (fun p b =>
      if b = 0x0A then ⟨p.offset + 1, p.line + 1, 1⟩ else ⟨p.offset + 1, p.line, p.column + 1⟩)
    .start

/-- Lexes bytes. Bytes that are not UTF-8 give no token at all. -/
def lex (source : Bytes) : Lexing :=
  match Text.Utf8.decode source with
  | .ok cs => scan .start [] cs
  | .error fault => ⟨[], some (errorAt (placeAfter (source.take fault.offset)) .invalidUtf8)⟩

/-- Lexes text. A surrogate has no UTF-8 form, so the text fails at the first one. -/
def lexText (source : Text.RawText) : Lexing :=
  if source.hasSurrogate then
    ⟨[], some (errorAt (Position.start.advance source.sound) .invalidUtf8)⟩
  else scan .start [] source.sound

def Lexing.complete (lexing : Lexing) : Except LexError (List Token) :=
  match lexing.failure with
  | none => .ok lexing.tokens
  | some error => .error error

def tokenize (source : Bytes) : Except LexError (List Token) :=
  (lex source).complete

def tokenizeText (source : Text.RawText) : Except LexError (List Token) :=
  (lexText source).complete

end TokenSearch.Lexer
