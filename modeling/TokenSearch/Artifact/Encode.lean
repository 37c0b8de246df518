import TokenSearch.Artifact.Blob
import TokenSearch.Artifact.Tables

namespace TokenSearch.Artifact

/-! The tables of an index. Rows go in one after the other, and the first that does not fit decides
which fault is reported. -/

def formatVersion : String := "looker-tokens-v1"

/-- The byte order in which blobs are written. -/
def nativeOrder : String := "little"

def checkColumn (n : Int) : Except Fault Unit :=
  if Cell.fitsColumn n then .ok () else .error .integerTooWide

def checkColumns : List Int → Except Fault Unit
  | [] => .ok ()
  | n :: rest => do
      checkColumn n
      checkColumns rest

def fileRow (file : IndexedFile) : FileRow where
  id := file.id
  path := .text file.path
  size := .integer file.fingerprint.size
  sha256 := .text file.fingerprint.sha256
  modified := .ofInteger? file.fingerprint.modified
  tokenCount := .integer file.tokens.length
  source := .blob file.source

/-- The integers of a row of the file table. -/
def fileNumbers (file : IndexedFile) : List Int :=
  file.id :: file.fingerprint.size :: file.fingerprint.modified.toList ++
    [(file.tokens.length : Int)]

/-- The rows of the file table in the artifact being written at `path`; `seen` are the paths of the
rows before. -/
def fileRows (path : Path) (seen : List String) : List IndexedFile → Except Fault (List FileRow)
  | [] => .ok []
  | file :: rest => do
      checkColumns (fileNumbers file)
      if file.path ∈ seen then .error (.indexIo path .duplicateFile)
      else return fileRow file :: (← fileRows path (file.path :: seen) rest)

def tokenRowsFrom (file : Int) (place : Nat) : List Token → List TokenRow
  | [] => []
  | token :: rest =>
      ⟨.integer file, .integer place, .text token.kind.name, .text token.text, token.start.spot,
        token.stop.spot⟩ :: tokenRowsFrom file (place + 1) rest

/-- The integers of the rows of a token; its file was looked at before. -/
def tokenNumbers (token : Token) : List Int :=
  [token.start.offset, token.start.line, token.start.column, token.stop.offset, token.stop.line,
    token.stop.column]

def tokenRows (files : List IndexedFile) : Except Fault (List TokenRow) := do
  checkColumns (files.flatMap (fun file => file.tokens.flatMap tokenNumbers))
  return files.flatMap (fun file => tokenRowsFrom file.id 0 file.tokens)

def postingRows : PostingMap → Except Fault (List PostingRow)
  | [] => .ok []
  | (identity, postings) :: rest => do
      let blob ← Blob.encode postings
      return ⟨.text identity.kind.name, .text identity.text, .blob blob⟩ :: (← postingRows rest)

/-- Of two rows with one path, the later one replaces the earlier one. -/
def skippedRows (skipped : List SkippedFile) : Except Fault (List SkippedRow) := do
  checkColumns (skipped.filterMap SkippedFile.offset)
  return ((skipped.foldl (fun (rows : List SkippedFile) row =>
    rows.filter (fun other => other.path ≠ row.path) ++ [row]) []).map SkippedRow.ofFile)

/-- The header as texts. -/
def headerTexts (index : Index) (postingKeys : Nat) (root created : String) :
    List (String × String) :=
  [("format_version", formatVersion), ("file_count", toString index.fileCount),
    ("token_count", toString index.tokenCount), ("posting_keys", toString postingKeys),
    ("byteorder", nativeOrder), ("created_at", created), ("root", root)]

def headerRows (index : Index) (postingKeys : Nat) (root created : String) : List HeaderRow :=
  (headerTexts index postingKeys root created).map (fun (key, value) => ⟨.text key, .text value⟩)

/-- A text that is kept must not hold surrogates. -/
def keepText (text : Text.RawText) : Except Fault String :=
  match text.toString? with
  | some kept => .ok kept
  | none => .error (.unencodable text)

/-- The tables of `index`, written at `path`. -/
def encode (path : Path) (index : Index) (skipped : List SkippedFile) (root : Text.RawText)
    (created : String) : Except Fault Tables := do
  let files ← fileRows path [] index.files
  let tokens ← tokenRows index.files
  let postings ← postingRows index.postings
  let skipped ← skippedRows skipped
  let root ← keepText root
  return {
    header := some (headerRows index postings.length root created)
    files := some files
    tokens := some tokens
    postings := some postings
    skipped := some skipped }

end TokenSearch.Artifact
