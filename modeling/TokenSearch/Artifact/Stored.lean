import TokenSearch.Artifact.Encode
import TokenSearch.Artifact.Shelf
import TokenSearch.Index.Reader
import TokenSearch.Text.Integer

namespace TokenSearch.Artifact

/-! An index read from an artifact. Opening checks the header against the file table; tokens,
postings and sources are read when they are asked for. -/

/-- What stands at the place of an artifact. -/
inductive Content where
  | tables (held : Tables)
  | empty
  | other
deriving DecidableEq, Repr

/-- One table of an artifact at `path`. -/
def Content.table (path : Path) (content : Content) (name : TableName)
    (rows : Tables → Option (List α)) : Except Fault (List α) :=
  match content with
  | .other => .error (.indexCorrupt path .notDatabase)
  | .empty => .error (.indexCorrupt path (.noTable name.text))
  | .tables held =>
      match rows held with
      | some rows => .ok rows
      | none => .error (.indexCorrupt path (.noTable name.text))

/-- An opened artifact: its header and its file table. -/
structure Stored where
  path : Path
  header : List HeaderRow
  entries : List FileEntry
deriving DecidableEq, Repr

def requiredKeys : List String :=
  ["format_version", "file_count", "token_count", "posting_keys", "byteorder"]

/-- The value of a key; of several rows with one key, the last counts. -/
def headerValue? (header : List HeaderRow) (key : String) : Option Cell :=
  (header.reverse.find? (fun row => row.key = .text key)).map HeaderRow.value

def loadHeader (path : Path) (content : Content) : Except Fault (List HeaderRow) := do
  let header ← match content.table path .header Tables.header with
    | .error (.indexCorrupt path cause) => .error (.indexCorrupt path (.unreadableHeader cause))
    | other => other
  let missing := requiredKeys.filter (fun key => (headerValue? header key).isNone)
  if missing.isEmpty then
    let found := (headerValue? header "format_version").getD .null
    if found = .text formatVersion then return header
    else .error (.indexCorrupt path (.wrongFormat found formatVersion))
  else .error (.indexCorrupt path (.missingKeys missing))

def FileRow.entry (row : FileRow) : FileEntry :=
  ⟨row.id, row.path, row.size, row.sha256, row.modified, row.tokenCount⟩

/-- The entries of the file table; ids must count its rows from `next` on. -/
def entriesFrom (path : Path) (next : Nat) : List FileRow → Except Fault (List FileEntry)
  | [] => .ok []
  | row :: rest =>
      if row.id = next then do return row.entry :: (← entriesFrom path (next + 1) rest)
      else .error (.indexCorrupt path (.sparseFileIds next))

def loadEntries (path : Path) (content : Content) : Except Fault (List FileEntry) := do
  let rows ← content.table path .files Tables.files
  entriesFrom path 0 (rows.mergeSort (fun a b => decide (a.id ≤ b.id)))

/-- A count of the header, in words or in the bytes of words. -/
def headerCount (path : Path) (header : List HeaderRow) (key : String) : Except Fault Int :=
  let refuse (value : Cell) (refusal : Text.Integer.Refusal) : Except Fault Int :=
    .error (.indexCorrupt path (.unreadableCount value refusal))
  match (headerValue? header key).getD .null with
  | .text value =>
      match Text.Integer.read value with
      | .ok n => .ok n
      | .error refusal => refuse (.text value) refusal
  | .blob value =>
      match Text.Integer.readBytes value with
      | .ok n => .ok n
      | .error refusal => refuse (.blob value) refusal
  | .integer n => .ok n
  | .null | .real _ => .error (.misfit .absentCount)

def checkHeader (path : Path) (content : Content) (header : List HeaderRow)
    (entries : List FileEntry) : Except Fault Unit := do
  let fileCount ← headerCount path header "file_count"
  let tokenCount ← headerCount path header "token_count"
  let postingKeys ← headerCount path header "posting_keys"
  if fileCount ≠ entries.length then
    .error (.indexCorrupt path (.fileCount fileCount entries.length))
  else do
    let storedTokens ← totalTokens entries
    if !storedTokens.agrees (.integer tokenCount) then
      .error (.indexCorrupt path (.tokenCount tokenCount storedTokens))
    else do
      let rows ← content.table path .postings Tables.postings
      if (rows.length : Int) ≠ postingKeys then
        .error (.indexCorrupt path (.postingKeys postingKeys))
      else return ()

/-- Opens the artifact at `path`, whose content is `content`. -/
def Stored.load (path : Path) (content : Content) : Except Fault Stored := do
  let header ← loadHeader path content
  let entries ← loadEntries path content
  checkHeader path content header entries
  return ⟨path, header, entries⟩

namespace Stored

def summary (stored : Stored) : String :=
  "SqliteCodeIndex(" ++ Text.Quoted.raw stored.path.text ++ ", files=" ++
    toString stored.entries.length ++ ")"

/-- Whether the words of the posting blobs have the other byte order. -/
def isSwapped (stored : Stored) : Bool :=
  headerValue? stored.header "byteorder" ≠ some (.text nativeOrder)

def tokenCount (stored : Stored) : Except Fault Int :=
  headerCount stored.path stored.header "token_count"

/-- When the artifact was written, if it tells. -/
def created (stored : Stored) : Cell :=
  (headerValue? stored.header "created_at").getD .null

def kind (stored : Stored) (name : Cell) : Except Fault TokenKind :=
  match name.text?.bind TokenKind.ofName? with
  | some kind => .ok kind
  | none => .error (.indexCorrupt stored.path (.unknownKind name))

def token (stored : Stored) (row : TokenRow) : Except Fault SeenToken := do
  return ⟨← stored.kind row.kind, row.text, row.start, row.stop⟩

def postings (stored : Stored) (content : Content) (identity : SeenIdentity) :
    Except Fault (List Posting) := do
  let rows ← content.table stored.path .postings Tables.postings
  match rows.find? (fun row =>
    row.kind = .text identity.kind.name && row.text = identity.text) with
  | none => return []
  | some row =>
      match row.positions with
      | .blob blob => Blob.decode stored.path identity.text stored.isSwapped blob
      | other => .error (.misfit (.notBytes other))

/-- By kind, then by text. -/
def rowPrecedes (a b : PostingRow) : Bool :=
  match a.kind.order b.kind with
  | .lt => true
  | .eq => a.text.precedes b.text
  | .gt => false

/-- The identity of a posting list. -/
def identity (stored : Stored) (row : PostingRow) : Except Fault SeenIdentity := do
  return ⟨← stored.kind row.kind, row.text⟩

def identities (stored : Stored) (content : Content) :
    Except Fault (List (Except Fault SeenIdentity)) := do
  let rows ← content.table stored.path .postings Tables.postings
  return (rows.mergeSort rowPrecedes).map stored.identity

/-- The token rows of the artifact. -/
def shelf (stored : Stored) (content : Content) : Except Fault Shelf := do
  return .ofRows (← content.table stored.path .tokens Tables.tokens)

def window (stored : Stored) (shelf : Shelf) (file start stop : Int) :
    Except Fault (List SeenToken) := do
  checkColumns [file, max start 0, stop]
  (shelf.window file start stop).mapM stored.token

/-- How many bytes a machine has room for. -/
def memoryLimit : Nat := Decimal.twoTo 40

/-- How many bytes can be asked for. -/
def countLimit : Nat := Decimal.twoTo 63 - 34

/-- The bytes of a source. A number stands for as many zeros. -/
def sourceBytes : Cell → Except Fault Bytes
  | .blob value => .ok value
  | .text _ => .error (.misfit .plainText)
  | .integer n =>
      if n < 0 then .error .negativeCount
      else if n > countLimit then .error .excessiveCount
      else if n ≥ memoryLimit then .error .outOfMemory
      else .ok (List.replicate n.toNat 0)
  | other => .error (.misfit (.notCountable other))

def source (stored : Stored) (content : Content) (file : Int) : Except Fault Bytes := do
  let rows ← content.table stored.path .files Tables.files
  checkColumn file
  match rows.find? (fun row => row.id = file) with
  | some row => sourceBytes row.source
  | none => .error (.indexCorrupt stored.path (.missingSource file))

def skippedFiles (stored : Stored) (content : Content) : Except Fault (List SkippedRow) := do
  let rows ← content.table stored.path .skipped Tables.skipped
  return rows.mergeSort (fun a b => a.path.precedes b.path)

/-- The stored index as a reader sees it. `connect` gives the content of the artifact, or the fault
with which each reading fails. -/
def reader (stored : Stored) (connect : Except Fault Content) : Reader :=
  let shelf := connect.bind stored.shelf
  { entries := stored.entries
    postingsOf := fun identity => do stored.postings (← connect) identity
    identities := do stored.identities (← connect)
    window := fun file start stop => do stored.window (← shelf) file start stop
    source := fun file => do stored.source (← connect) file
    holder := .list }

end Stored

end TokenSearch.Artifact
