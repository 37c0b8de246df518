import TokenSearch.Session.Handle

namespace TokenSearch.Session

/-! Steps on the files of a session. -/

def changeDisk (f : Disk → Except Disk.Error Unit × Disk) : Step Unit :=
  lift (Run.changeDisk (fun disk =>
    let (result, after) := f disk
    (result.mapError Fault.disk, after)))

/-- Makes the parents of a path and then changes the disk. -/
def withParents (path : Path) (f : Disk → Except Disk.Error Disk) (disk : Disk) :
    Except Disk.Error Unit × Disk :=
  match disk.makeDirs path.parent with
  | (.error error, after) => (.error error, after)
  | (.ok (), after) =>
      match f after with
      | .ok last => (.ok (), last)
      | .error error => (.error error, after)

def writeFile (path : Path) (body : Disk.Body) (modified : Int) : Step Unit :=
  changeDisk (withParents path (fun disk => disk.write path ⟨body, modified⟩))

def removeFile (path : Path) : Step Unit :=
  changeDisk (fun disk => disk.removeAll path)

def makeDirectory (path : Path) : Step Unit :=
  changeDisk (fun disk => disk.makeDirs path)

/-- Makes a link; its directory must be there. -/
def makeLink (path : Path) (target : String) : Step Unit :=
  changeDisk (fun disk =>
    match disk.link path target with
    | .ok after => (.ok (), after)
    | .error error => (.error error, disk))

def listDirectory (path : Path) : Step (List Text.RawText) := do
  Step.ofExcept (((← get).world.disk.list path).mapError .disk)

def bytesAt (path : Path) : Step Bytes := do
  Step.ofExcept (((← get).world.disk.read path).mapError .disk)

/-- Finds source files; the directory `indexDir` is left out. -/
def discover (root : Path) (extensions skipDirs : List String) (indexDir : Option Path) :
    Step (List Path) := do
  let disk := (← get).world.disk
  let excluded ← match indexDir with
    | some path => do pure (some (← Step.ofExcept (Discovery.exclude disk path)))
    | none => pure none
  let found ← Step.ofExcept (Discovery.discover disk root ⟨extensions, skipDirs, excluded⟩)
  lift (Run.notes found.notes)
  return found.paths

/-- Sets a variable of the environment, or removes it. -/
def setVariable (name : String) (value : Option String) : Step Unit :=
  modify (fun session =>
    let environment := match value with
      | some text => Data.Assoc.put session.world.environment name text
      | none => Data.Assoc.erase session.world.environment name
    { session with world := { session.world with environment } })

/-- The table that an edit is about. -/
def tableOf : Artifact.Edit → String
  | .rows table _ => table
  | .drop table => table

/-- The fault of an edit in a file that holds no tables; a file that is empty has none of them. -/
def strangeFile (body : Disk.Body) : List Artifact.Edit → Option Fault
  | [] => none
  | edit :: _ =>
      match body with
      | .bytes [] => some (.table (.noTable (tableOf edit)))
      | .damaged => some (.table .unreadable)
      | _ => some (.table .notDatabase)

/-- Edits the tables of the artifact in a directory, in its place. A file that is not there is made,
and is empty. -/
def editArtifact (directory : String) (edits : List Artifact.Edit) : Step Unit := do
  let path := Store.path ⟨.ofString directory⟩
  let disk := (← get).world.disk
  match disk.openFile path with
  | .error .nullByte => throw (.disk .nullByte)
  | .error _ =>
      if edits.isEmpty then return
      match disk.write path ⟨.bytes [], 0⟩ with
      | .error _ => throw (.table .cannotOpen)
      | .ok after =>
          changeDisk (fun _ => (.ok (), after))
          Step.ofExcept ((strangeFile (.bytes []) edits).elim (.ok ()) .error)
  | .ok serial =>
      match disk.body serial with
      | .artifact tables =>
          let (kept, fault) := tables.editAll tables false edits
          changeDisk (fun disk =>
            (.ok (), disk.overwrite serial ⟨.artifact kept, disk.modified serial⟩))
          Step.ofExcept (fault.elim (.ok ()) .error)
      | other => Step.ofExcept ((strangeFile other edits).elim (.ok ()) .error)

/-- Overwrites the artifact in a directory by any bytes. -/
def overwriteArtifact (directory : String) (content : Bytes) : Step Unit :=
  writeFile (Store.path ⟨.ofString directory⟩) (.bytes content) 0

end TokenSearch.Session
