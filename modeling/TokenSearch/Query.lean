import TokenSearch.Fault
import TokenSearch.Lexer.Tokenize

namespace TokenSearch

/-! What is searched for: a text that is lexed like the files, with at least one token. -/

structure Query where
  text : String
  tokens : List Token
  nonempty : tokens ≠ []

namespace Query

/-- The name that stands for the file in faults of a query. -/
def sourceName : String := "<query>"

def compile (text : Text.RawText) : Except Fault Query :=
  match Lexer.tokenizeText text with
  | .error error => .error (.lex (error.withPath sourceName))
  | .ok [] => .error (.emptyQuery text.toStringLossy)
  | .ok (first :: rest) => .ok ⟨text.toStringLossy, first :: rest, by simp⟩

def first (query : Query) : Token := query.tokens.head query.nonempty

def width (query : Query) : Nat := query.tokens.length

def identities (query : Query) : List Identity := query.tokens.map Token.identity

def texts (query : Query) : List String := query.tokens.map Token.text

end Query

end TokenSearch
