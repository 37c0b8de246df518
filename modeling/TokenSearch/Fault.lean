import TokenSearch.Disk.Error
import TokenSearch.Lexer.Error
import TokenSearch.Logging.Threshold
import TokenSearch.Path
import TokenSearch.Settings.Problem
import TokenSearch.Table.Cell
import TokenSearch.Table.Error
import TokenSearch.Text.Integer

namespace TokenSearch

/-! Why an operation fails, and the words for it. -/

/-- What makes a stored index unusable. -/
inductive Corruption where
  | noTable (name : String)
  | notDatabase
  | unreadableHeader (cause : Corruption)
  | missingKeys (keys : List String)
  | wrongFormat (found : Cell) (expected : String)
  | sparseFileIds (place : Nat)
  | unreadableCount (value : Cell) (refusal : Text.Integer.Refusal)
  | fileCount (listed : Int) (stored : Nat)
  | tokenCount (listed : Int) (stored : Cell)
  | postingKeys (listed : Int)
  | unknownKind (name : Cell)
  | oddBlob (text : Cell)
  | missingSource (file : Int)
  | stated (words : String)
deriving DecidableEq, Repr

def Corruption.message : Corruption → String
  | .noTable name => "no such table: " ++ name
  | .notDatabase => "file is not a database"
  | .unreadableHeader cause => "unreadable header: " ++ cause.message
  | .missingKeys keys => "header missing " ++ ", ".intercalate keys
  | .wrongFormat found expected =>
      "format " ++ found.shown ++ ", expected " ++ Text.Quoted.text expected
  | .sparseFileIds place => "file ids are not dense at " ++ toString place
  | .unreadableCount value refusal => "non-numeric header count: " ++ refusal.message value.shown
  | .fileCount listed stored =>
      "header lists " ++ toString listed ++ " files, table has " ++ toString stored
  | .tokenCount listed stored =>
      "header lists " ++ toString listed ++ " tokens, files hold " ++ stored.words
  | .postingKeys listed => "header lists " ++ toString listed ++ " posting lists"
  | .unknownKind name => "unknown token kind " ++ name.shown
  | .oddBlob text => "odd posting blob length for " ++ text.shown
  | .missingSource file => "missing source for file id " ++ toString file
  | .stated words => words

/-- What keeps a stored index from being written or read. -/
inductive IoCause where
  | rootNotDirectory
  | cannotOpen
  | unreadable
  | cannotRead
  | cannotCreate (error : Disk.Error)
  | cannotBegin
  | duplicateFile
  | cannotInstall (error : Disk.Error)
  | stated (words : String)
deriving DecidableEq, Repr

def IoCause.message : IoCause → String
  | .rootNotDirectory => "root is not a directory"
  | .cannotOpen => "cannot open index: unable to open database file"
  | .unreadable => "cannot open index: disk I/O error"
  | .cannotRead => "read failed: disk I/O error"
  | .cannotCreate error => "cannot create index directory: " ++ error.message
  | .cannotBegin => "failed to write index: unable to open database file"
  | .duplicateFile => "failed to write index: UNIQUE constraint failed: files.path"
  | .cannotInstall error => "cannot install index: " ++ error.message
  | .stated words => words

/-- The two kinds of sequences in which a place is looked up. -/
inductive Holder where
  | tuple
  | list
deriving DecidableEq, Repr

def Holder.name : Holder → String
  | .tuple => "tuple"
  | .list => "list"

/-- A value of a kind that an operation cannot use. -/
inductive Misfit where
  | absentCount
  | sum (left right : Cell)
  | notBytes (cell : Cell)
  | notText (cell : Cell)
  | plainText
  | notCountable (cell : Cell)
  | notIndex
  | voidPath
  | voidLimit
  | repeatedName
  | surrogate
deriving DecidableEq, Repr

def Misfit.message : Misfit → String
  | .absentCount =>
      "int() argument must be a string, a bytes-like object or a real number, not 'NoneType'"
  | .sum left right =>
      "unsupported operand type(s) for +: '" ++ left.kindName ++ "' and '" ++ right.kindName ++ "'"
  | .notBytes cell => "a bytes-like object is required, not '" ++ cell.kindName ++ "'"
  | .notText cell => "Object of type " ++ cell.kindName ++ " is not JSON serializable"
  | .plainText => "string argument without an encoding"
  | .notCountable cell => "cannot convert '" ++ cell.kindName ++ "' object to bytes"
  | .notIndex => "slice indices must be integers or None or have an __index__ method"
  | .voidPath => "expected str, bytes or os.PathLike object, not list"
  | .voidLimit => "'<' not supported between instances of 'list' and 'int'"
  | .repeatedName => "traced() got multiple values for argument 'operation'"
  | .surrogate => "str is not valid UTF-8: surrogates not allowed"

/-- The two kinds of indexes that can be asked for something. -/
inductive Keeper where
  | memory
  | artifact
deriving DecidableEq, Repr

def Keeper.name : Keeper → String
  | .memory => "CodeIndex"
  | .artifact => "SqliteCodeIndex"

inductive Fault where
  | lex (error : LexError)
  | emptyQuery (query : String)
  | indexMissing (path : Path)
  | indexCorrupt (path : Path) (cause : Corruption)
  | indexIo (path : Path) (cause : IoCause)
  | outOfRange (holder : Holder)
  | unevenBlob
  | undecodable (sequence : Text.Utf8.Malformed)
  | unencodable (text : Text.RawText)
  | negativeLimit (limit : Int)
  | negativeCount
  | excessiveCount
  | outOfMemory
  | duplicatePath (path : String)
  | sparseIds (found : Int) (expected : Nat)
  | noWorkers
  | noKind (name : String)
  | integerTooWide
  | negativeWord
  | wordTooLarge
  | wordTooWide
  | misfit (cause : Misfit)
  | lacking (keeper : Keeper) (request : String)
  | noHome
  | linkLoop (path : Text.RawText)
  | disk (error : Disk.Error)
  | table (error : Table.Error)
  | invalidSettings (problems : List Settings.Problem)
  | invalidHit (problems : List (String × Settings.Cause))
  | takenLevel (name : Logging.TakenName)
  | stated (words : String)
deriving DecidableEq, Repr

namespace Fault

def undecodableWords (sequence : Text.Utf8.Malformed) : String :=
  let place :=
    if sequence.width = 1 then
      "byte 0x" ++ String.ofList (Text.Hex.byte sequence.first) ++ " in position " ++
        toString sequence.offset
    else
      "bytes in position " ++ toString sequence.offset ++ "-" ++
        toString (sequence.offset + sequence.width - 1)
  "'utf-8' codec can't decode " ++ place ++ ": " ++ sequence.reason.message

/-- The first surrogates of a text cannot be written. -/
def unencodableWords (text : Text.RawText) : String :=
  let front := text.points.takeWhile (fun point => !Text.RawText.isSurrogate point)
  let run := (text.points.drop front.length).takeWhile Text.RawText.isSurrogate
  let place :=
    match run with
    | [point] =>
        "character '" ++ String.ofList (Text.Quoted.mark point.toNat) ++ "' in position " ++
          toString front.length
    | _ =>
        "characters in position " ++ toString front.length ++ "-" ++
          toString (front.length + run.length - 1)
  "'utf-8' codec can't encode " ++ place ++ ": surrogates not allowed"

def message : Fault → Text.RawText
  | .lex error => error.message
  | .emptyQuery query => "Query contains no C tokens: " ++ Text.Quoted.text query
  | .indexMissing path => "No index found at " ++ path.text ++ "; run 'looker build' first"
  | .indexCorrupt path cause =>
      "Index at " ++ path.text ++ " is corrupt (" ++ cause.message ++
        "); rebuild it with 'looker build'"
  | .indexIo path cause => "I/O failure on " ++ path.text ++ ": " ++ cause.message
  | .outOfRange holder => holder.name ++ " index out of range"
  | .unevenBlob => "bytes length not a multiple of item size"
  | .undecodable sequence => undecodableWords sequence
  | .unencodable text => unencodableWords text
  | .negativeLimit limit => "limit must be >= 0, got " ++ toString limit
  | .negativeCount => "negative count"
  | .excessiveCount => "byte string is too large"
  | .outOfMemory => ""
  | .duplicatePath path => "Duplicate source path: " ++ path
  | .sparseIds found expected =>
      "File ids must be dense and ordered; got " ++ toString found ++ " at " ++ toString expected
  | .noWorkers => "max_workers must be greater than 0"
  | .noKind name => Text.Quoted.text name ++ " is not a valid TokenKind"
  | .integerTooWide => "Python int too large to convert to SQLite INTEGER"
  | .negativeWord => "can't convert negative value to unsigned int"
  | .wordTooLarge => "unsigned int is greater than maximum"
  | .wordTooWide => "Python int too large to convert to C unsigned long"
  | .misfit cause => cause.message
  | .lacking keeper request =>
      "'" ++ keeper.name ++ "' object has no attribute '" ++ request ++ "'"
  | .noHome => "Could not determine home directory."
  | .linkLoop path => "Symlink loop from " ++ Text.Quoted.raw path
  | .disk error => error.message
  | .table error => error.message
  | .invalidSettings problems => "\n".intercalate (problems.map Settings.Problem.message)
  | .invalidHit problems =>
      "\n".intercalate (problems.map (fun (field, cause) => field ++ ": " ++ cause.message))
  | .takenLevel name => name.message
  | .stated words => words

/-- The name under which faults of this kind are counted. -/
def label : Fault → String
  | .lex _ => "LexError"
  | .emptyQuery _ => "EmptyQueryError"
  | .indexMissing _ => "IndexMissingError"
  | .indexCorrupt _ _ => "IndexCorruptError"
  | .indexIo _ _ => "IndexIOError"
  | .outOfRange _ => "IndexError"
  | .unevenBlob | .negativeLimit _ | .negativeCount | .duplicatePath _ | .sparseIds _ _
  | .noWorkers | .noKind _ => "ValueError"
  | .takenLevel .pattern => "ValueError"
  | .takenLevel .styles => "TypeError"
  | .undecodable _ => "UnicodeDecodeError"
  | .unencodable _ => "UnicodeEncodeError"
  | .integerTooWide | .negativeWord | .wordTooLarge | .wordTooWide
  | .excessiveCount => "OverflowError"
  | .outOfMemory => "MemoryError"
  | .misfit _ => "TypeError"
  | .lacking _ _ => "AttributeError"
  | .noHome | .linkLoop _ | .stated _ => "RuntimeError"
  | .disk .nullByte => "ValueError"
  | .disk (.refused cause _) =>
      match cause with
      | .notFound => "FileNotFoundError"
      | .permissionDenied => "PermissionError"
      | .alreadyExists => "FileExistsError"
      | .notDirectory => "NotADirectoryError"
      | .isDirectory => "IsADirectoryError"
      | _ => "OSError"
  | .table error => error.label
  | .invalidSettings _ | .invalidHit _ => "ValidationError"

/-- Faults that the search itself announces. A command reports them and ends; any other fault
means that something outside its rules went wrong. -/
def isAnnounced : Fault → Bool
  | .lex _ | .emptyQuery _ | .indexMissing _ | .indexCorrupt _ _ | .indexIo _ _ => true
  | _ => false

/-- The label as a trace writes it. -/
def tracedLabel (fault : Fault) : String :=
  if fault.isAnnounced then "looker.search.errors." ++ fault.label else fault.label

end Fault

end TokenSearch
