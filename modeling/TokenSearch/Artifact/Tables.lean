import TokenSearch.Index.Reader
import TokenSearch.Table.Affinity

namespace TokenSearch.Artifact

/-! The tables in which an index is kept. -/

/-- A key of the header with its value. -/
structure HeaderRow where
  key : Cell
  value : Cell
deriving DecidableEq, Repr, Inhabited

structure FileRow where
  id : Int
  path : Cell
  size : Cell
  sha256 : Cell
  modified : Cell
  tokenCount : Cell
  source : Cell
deriving DecidableEq, Repr, Inhabited

structure TokenRow where
  file : Cell
  place : Cell
  kind : Cell
  text : Cell
  start : Spot
  stop : Spot
deriving DecidableEq, Repr, Inhabited

structure PostingRow where
  kind : Cell
  text : Cell
  positions : Cell
deriving DecidableEq, Repr, Inhabited

structure SkippedRow where
  path : Cell
  reason : Cell
  message : Cell
  offset : Cell
deriving DecidableEq, Repr, Inhabited

def SkippedRow.ofFile (file : SkippedFile) : SkippedRow :=
  ⟨.text file.path, .text file.reason, .text file.message, .ofInteger? file.offset⟩

/-- The five tables of an artifact; a table may have been dropped. -/
structure Tables where
  header : Option (List HeaderRow)
  files : Option (List FileRow)
  tokens : Option (List TokenRow)
  postings : Option (List PostingRow)
  skipped : Option (List SkippedRow)
deriving DecidableEq, Repr, Inhabited

inductive TableName where
  | header
  | files
  | tokens
  | postings
  | skipped
deriving DecidableEq, Repr

namespace TableName

def text : TableName → String
  | .header => "metadata"
  | .files => "files"
  | .tokens => "tokens"
  | .postings => "postings"
  | .skipped => "skipped_files"

def all : List TableName := [.header, .files, .tokens, .postings, .skipped]

/-- The table of a name; case does not count. -/
def ofText? (text : String) : Option TableName :=
  all.find? (fun name => name.text = text.map Char.toLower)

end TableName

end TokenSearch.Artifact
