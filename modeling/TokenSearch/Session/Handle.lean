import TokenSearch.Artifact.Edit
import TokenSearch.Service.Operations

namespace TokenSearch

/-! A session: a world, and indexes that were opened or built under a name. -/

/-- An index in memory, or an opened artifact. An artifact keeps the number of the file that it was
opened from; one that was closed opens whatever is at its path when it is next read. -/
inductive Handle where
  | memory (index : Index)
  | stored (stored : Artifact.Stored) (connection : Option Nat)

structure Session where
  world : World
  handles : Data.Assoc String Handle

namespace Session

abbrev Step := ExceptT Fault (StateM Session)

/-- Runs an operation on the world of the session. -/
def lift (body : Run α) : Step α := do
  let session ← get
  let (result, world) := body.run session.world
  set { session with world }
  match result with
  | .ok a => return a
  | .error fault => throw fault

def Step.ofExcept (result : Except Fault α) : Step α :=
  match result with
  | .ok a => pure a
  | .error fault => throw fault

def handle (name : String) : Step Handle := do
  match Data.Assoc.get? (← get).handles name with
  | some handle => return handle
  | none => throw (.stated ("no index is named " ++ name))

def keep (name : String) (handle : Handle) : Step Unit :=
  modify (fun session => { session with handles := Data.Assoc.put session.handles name handle })

/-- The index in memory of a name, which is asked for `request`. -/
def memory (name request : String) : Step Index := do
  match ← handle name with
  | .memory index => return index
  | .stored _ _ => throw (.lacking .artifact request)

/-- The opened artifact of a name, which is asked for `request`. -/
def stored (name request : String) : Step (Artifact.Stored × Option Nat) := do
  match ← handle name with
  | .stored stored connection => return (stored, connection)
  | .memory _ => throw (.lacking .memory request)

/-- The content behind an opened artifact. A closed one is opened anew, and stays open. -/
def connect (name : String) (stored : Artifact.Stored) (connection : Option Nat) :
    Step (Except Fault Artifact.Content) := do
  let disk := (← get).world.disk
  match connection with
  | some serial =>
      match (disk.body serial).content? with
      | some content => return .ok content
      | none => return .error (.indexIo stored.path .cannotRead)
  | none =>
      match Store.connect disk stored.path with
      | .error fault => return .error fault
      | .ok serial =>
          let content := Store.contentOf disk stored.path serial
          if content.isOk then keep name (.stored stored (some serial))
          return content

/-- An index as a reader sees it. -/
def reader (name : String) : Step Reader := do
  match ← handle name with
  | .memory index => return index.reader
  | .stored stored connection => return stored.reader (← connect name stored connection)

/-- The file table of an index, for which nothing has to be read. -/
def entries (name : String) : Step (List FileEntry) := do
  match ← handle name with
  | .memory index => return index.entries
  | .stored stored _ => return stored.entries

/-- How many files and tokens an index has. -/
def sizes (name : String) : Step (Nat × Int) := do
  match ← handle name with
  | .memory index => return (index.fileCount, index.tokenCount)
  | .stored stored _ => return (stored.entries.length, ← Step.ofExcept stored.tokenCount)

/-- Builds an index in memory. An earlier index is read by workers of their own. -/
def build (name : String) (sources : List SourceFile) (previous : Option String) (workers : Int) :
    Step BuildResult := do
  let earlier ← match previous with
    | none => pure none
    | some other =>
        match ← handle other with
        | .memory index => pure (some index.reader)
        | .stored stored _ =>
            pure (some (Service.freshReader (← get).world.disk stored))
  let _ ← Step.ofExcept (Build.order sources)
  if workers ≤ 0 then throw .noWorkers
  let result ← lift (Service.buildLogged earlier sources)
  keep name (.memory result.index)
  return result

/-- A file of an index that is put together by hand. -/
def indexedFile (id : Int) (path : String) (content : Bytes) : Except Fault IndexedFile :=
  match Lexer.tokenize content with
  | .ok tokens => .ok ⟨id, path, .ofContent content none, tokens, content⟩
  | .error error => .error (.lex error)

/-- Puts an index together; without posting lists it gets the right ones. -/
def assemble (name : String) (files : List (Int × String × Bytes))
    (postings : Option (List (Identity × List Posting))) : Step Index := do
  let files ← Step.ofExcept (files.mapM (fun (id, path, content) => indexedFile id path content))
  let postings := match postings with
    | some given => Data.Assoc.ofList given
    | none => PostingMap.ofFiles files
  let index ← Step.ofExcept (Index.ofParts files postings)
  keep name (.memory index)
  return index

/-- Saves an index. An opened artifact is found to hold no files only when they are to be
written. -/
def save (name directory : String) (root : String) (skipped : List SkippedFile) : Step Path := do
  let store : Store := ⟨.ofString directory⟩
  match ← handle name with
  | .memory index => lift (Service.saveLogged store index skipped root)
  | .stored _ _ =>
      lift (Run.changeDisk store.prepare)
      let world := (← get).world
      let _ ← Step.ofExcept (store.begin world.disk world.chance.nonce)
      throw (.lacking .artifact "indexed_files")

def openStored (name directory : String) : Step Artifact.Stored := do
  let disk := (← get).world.disk
  let store : Store := ⟨.ofString directory⟩
  let stored ← Step.ofExcept (store.load disk)
  let serial ← Step.ofExcept (Store.connect disk stored.path)
  keep name (.stored stored (some serial))
  return stored

def close (name : String) : Step Unit := do
  let (stored, _) ← stored name "close"
  keep name (.stored stored none)

def skippedFiles (name : String) : Step (List Artifact.SkippedRow) := do
  let (stored, connection) ← stored name "skipped_files"
  let content ← Step.ofExcept (← connect name stored connection)
  Step.ofExcept (stored.skippedFiles content)

/-- The candidates and the matches of a query. -/
def findMatches (name : String) (text : Text.RawText) : Step (List Posting × List Match) := do
  let query ← Step.ofExcept (Query.compile text)
  let reader ← reader name
  let candidates ← Step.ofExcept (reader.candidates query)
  let found ← Step.ofExcept (Search.verify reader query candidates).complete
  return (candidates, found)

def search (name : String) (text : Text.RawText) (limit : Option Int) : Step Response := do
  Step.ofExcept (Service.checkLimit limit)
  let query ← Step.ofExcept (Query.compile text)
  let reader ← reader name
  lift (Service.searchLogged (reader.search query limit))

end Session

end TokenSearch
