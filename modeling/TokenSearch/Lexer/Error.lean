import TokenSearch.Text.Quoted

namespace TokenSearch

/-! Why a text cannot be split into tokens, and where. -/

inductive LexCause where
  | invalidUtf8
  | unterminatedComment
  | unterminatedString
  | emptyChar
  | unterminatedChar
  | unexpected (byte : UInt8)
  /-- A cause that a caller puts into words. -/
  | stated (words : String)
deriving DecidableEq, Repr

def LexCause.message : LexCause → String
  | .invalidUtf8 => "invalid UTF-8 byte sequence"
  | .unterminatedComment => "unterminated block comment"
  | .unterminatedString => "unterminated string literal"
  | .emptyChar => "empty character literal"
  | .unterminatedChar => "unterminated character literal"
  | .unexpected byte => "unexpected character " ++ Text.Quoted.bytes [byte]
  | .stated words => words

structure LexError where
  cause : LexCause
  offset : Int
  line : Int
  column : Int
  path : Option String
deriving DecidableEq, Repr

namespace LexError

def withPath (error : LexError) (path : String) : LexError :=
  { error with path := some path }

/-- The place, the file in front if its name is known and not empty, and the cause. -/
def message (error : LexError) : String :=
  let place := toString error.line ++ ":" ++ toString error.column ++ " (byte " ++
    toString error.offset ++ "): " ++ error.cause.message
  match error.path with
  | some path => if path.isEmpty then place else path ++ ":" ++ place
  | none => place

end LexError

end TokenSearch
