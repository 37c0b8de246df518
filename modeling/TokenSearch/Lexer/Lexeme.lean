namespace TokenSearch.Lexer

/-! Lexemes of C: the pieces into which a text falls, blanks and comments included. Each function
counts the characters of the lexeme that starts a text. -/

inductive LexemeKind where
  | space
  | lineComment
  | blockComment
  | string
  | char
  | number
  | word
  | punctuator
  | header
deriving DecidableEq, Repr

def isSpace (c : Char) : Bool :=
  c = ' ' || c = '\t' || c = '\n' || c = '\r' || c = '\x0b' || c = '\x0c'

def isDigit (c : Char) : Bool :=
  '0' ≤ c && c ≤ '9'

def isLetter (c : Char) : Bool :=
  ('a' ≤ c && c ≤ 'z') || ('A' ≤ c && c ≤ 'Z') || c = '_'

def isWordChar (c : Char) : Bool :=
  isLetter c || isDigit c

/-- Blanks and line splices: a backslash right before a line end joins two lines. -/
def spaceRun : List Char → Nat
  | '\\' :: '\r' :: '\n' :: rest => spaceRun rest + 3
  | '\\' :: '\n' :: rest => spaceRun rest + 2
  | c :: rest => if isSpace c then spaceRun rest + 1 else 0
  | [] => 0

/-- The body of a line comment. A backslash takes the next character with it, a line end too. -/
def lineBody : List Char → Nat
  | [] => 0
  | '\\' :: '\r' :: '\n' :: rest => lineBody rest + 3
  | '\\' :: _ :: rest => lineBody rest + 2
  | c :: rest => if c = '\n' then 0 else lineBody rest + 1

/-- The body of a block comment with its closing mark. -/
def blockBody : List Char → Option Nat
  | [] => none
  | '*' :: '/' :: _ => some 2
  | _ :: rest => (blockBody rest).map (· + 1)

/-- The body of a literal with its closing quote. It holds no line end that a backslash does not
take. -/
def quotedBody (quote : Char) : List Char → Option Nat
  | [] => none
  | '\\' :: '\r' :: '\n' :: rest => (quotedBody quote rest).map (· + 3)
  | '\\' :: _ :: rest => (quotedBody quote rest).map (· + 2)
  | c :: rest =>
      if c = quote then some 1
      else if c = '\n' || c = '\\' then none
      else (quotedBody quote rest).map (· + 1)

/-- An opening quote with the encoding mark before it. -/
def opening (quote : Char) : List Char → Option Nat
  | a :: b :: c :: _ =>
      if a = quote then some 1
      else if (a = 'u' || a = 'U' || a = 'L') && b = quote then some 2
      else if a = 'u' && b = '8' && c = quote then some 3
      else none
  | [a, b] =>
      if a = quote then some 1
      else if (a = 'u' || a = 'U' || a = 'L') && b = quote then some 2
      else none
  | [a] => if a = quote then some 1 else none
  | [] => none

def stringLength (cs : List Char) : Option Nat := do
  let n ← opening '"' cs
  let m ← quotedBody '"' (cs.drop n)
  return n + m

/-- A character literal has at least one character between its quotes. -/
def charLength (cs : List Char) : Option Nat := do
  let n ← opening '\'' cs
  let m ← quotedBody '\'' (cs.drop n)
  if m = 1 then none else return n + m

/-- The characters behind the first digit of a number; a sign belongs to it behind an exponent
mark. -/
def numberTail : List Char → Nat
  | [] => 0
  | [c] => if isWordChar c || c = '.' then 1 else 0
  | c :: sign :: rest =>
      if (c = 'e' || c = 'E' || c = 'p' || c = 'P') && (sign = '+' || sign = '-') then
        numberTail rest + 2
      else if isWordChar c || c = '.' then numberTail (sign :: rest) + 1
      else 0

def numberLength : List Char → Option Nat
  | '.' :: d :: rest => if isDigit d then some (numberTail rest + 2) else none
  | d :: rest => if isDigit d then some (numberTail rest + 1) else none
  | [] => none

def wordLength : List Char → Option Nat
  | c :: rest => if isLetter c then some ((rest.takeWhile isWordChar).length + 1) else none
  | [] => none

/-- All punctuators, the longer ones first. -/
def punctuators : List (List Char) :=
  ["%:%:", "...", "<<=", ">>=", "->", "++", "--", "<<", ">>", "<=", ">=", "==", "!=", "&&", "||",
    "*=", "/=", "%=", "+=", "-=", "&=", "^=", "|=", "##", "<:", ":>", "<%", "%>", "%:",
    "[", "]", "(", ")", "\x7b", "\x7d", ".", "&", "*", "+", "-", "~", "!", "/", "%", "<", ">",
    "^", "|", "?", ":", ";", "=", ",", "#"].map String.toList

def punctuatorLength (cs : List Char) : Option Nat :=
  (punctuators.find? (fun p => p.isPrefixOf cs)).map List.length

def spaceLength (cs : List Char) : Option Nat :=
  match spaceRun cs with
  | 0 => none
  | n + 1 => some (n + 1)

def lineCommentLength : List Char → Option Nat
  | '/' :: '/' :: rest => some (lineBody rest + 2)
  | _ => none

/-- A comment mark that nothing closes is no lexeme. -/
def blockCommentLength : List Char → Option Nat
  | '/' :: '*' :: rest => (blockBody rest).map (· + 2)
  | _ => none

def opensBlockComment : List Char → Bool
  | '/' :: '*' :: _ => true
  | _ => false

/-- A header name runs to the first closing bracket of its line. -/
def headerLength : List Char → Option Nat
  | '<' :: rest =>
      let name := rest.takeWhile (fun c => c != '>' && c != '\n')
      if name.isEmpty then none
      else
        match rest.drop name.length with
        | '>' :: _ => some (name.length + 2)
        | _ => none
  | _ => none

/-- The lexeme that starts a text: its class and its length. The classes are tried in this order,
and no two of them but words and literal marks can start alike. -/
def lexeme (cs : List Char) : Option (LexemeKind × Nat) :=
  if let some n := spaceLength cs then some (.space, n)
  else if let some n := lineCommentLength cs then some (.lineComment, n)
  else if let some n := blockCommentLength cs then some (.blockComment, n)
  else if opensBlockComment cs then none
  else if let some n := stringLength cs then some (.string, n)
  else if let some n := charLength cs then some (.char, n)
  else if let some n := numberLength cs then some (.number, n)
  else if let some n := wordLength cs then some (.word, n)
  else (punctuatorLength cs).map (.punctuator, ·)

end TokenSearch.Lexer
