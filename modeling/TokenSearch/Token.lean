import TokenSearch.Text.Utf8

namespace TokenSearch

/-! Tokens of C source text and where they stand. -/

/-- Lexical classes. -/
inductive TokenKind where
  | identifier
  | keyword
  | number
  | string
  | char
  | punctuator
deriving DecidableEq, Repr, Inhabited

namespace TokenKind

def all : List TokenKind :=
  [.identifier, .keyword, .number, .string, .char, .punctuator]

def name : TokenKind → String
  | .identifier => "identifier"
  | .keyword => "keyword"
  | .number => "number"
  | .string => "string"
  | .char => "char"
  | .punctuator => "punctuator"

def ofName? (name : String) : Option TokenKind :=
  all.find? (fun kind => kind.name = name)

@[simp]
theorem ofName?_name (kind : TokenKind) : ofName? kind.name = some kind := by
  cases kind <;> rfl

end TokenKind

/-- A place in a text: bytes before it, its line and its column. Lines and columns count from one,
and columns count bytes. -/
structure Position where
  offset : Int
  line : Int
  column : Int
deriving DecidableEq, Repr, Inhabited

namespace Position

def start : Position := ⟨0, 1, 1⟩

/-- The place behind one more character. -/
def step (p : Position) (c : Char) : Position :=
  if c = '\n' then ⟨p.offset + 1, p.line + 1, 1⟩
  else ⟨p.offset + c.utf8Size, p.line, p.column + c.utf8Size⟩

/-- The place behind the characters `cs`. -/
def advance (p : Position) (cs : List Char) : Position :=
  cs.foldl step p

@[simp]
theorem advance_nil (p : Position) : p.advance [] = p := rfl

@[simp]
theorem advance_append (p : Position) (left right : List Char) :
    p.advance (left ++ right) = (p.advance left).advance right := by
  simp [advance, List.foldl_append]

end Position

/-- What a search compares: the class of a token and its text. -/
structure Identity where
  kind : TokenKind
  text : String
deriving DecidableEq, Repr, Inhabited

/-- Order of identities in listings: by the name of the class, then by the text. -/
def Identity.precedes (a b : Identity) : Bool :=
  if a.kind = b.kind then decide (a.text ≤ b.text) else decide (a.kind.name ≤ b.kind.name)

/-- A token with the places of its first byte and of the byte behind it. -/
structure Token where
  kind : TokenKind
  text : String
  start : Position
  stop : Position
deriving DecidableEq, Repr, Inhabited

namespace Token

def identity (token : Token) : Identity := ⟨token.kind, token.text⟩

/-- The line of the last byte: no token ends with a line feed. -/
def lastLine (token : Token) : Int := token.stop.line

end Token

end TokenSearch
