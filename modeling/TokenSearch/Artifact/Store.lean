import TokenSearch.Disk.Files
import TokenSearch.Logging.Level

namespace TokenSearch

/-! The place of the artifact of one index. A new artifact is written beside the old one and takes
its place in one step, so that a failure leaves the old one as it was. -/

structure Store where
  directory : Path
deriving DecidableEq, Repr

namespace Store

def fileName : String := "index.db"

def path (store : Store) : Path := store.directory.child fileName

/-- The place of an artifact being written; `nonce` keeps two writers apart. -/
def draft (store : Store) (nonce : String) : Path :=
  store.directory.child ("." ++ fileName ++ "." ++ nonce ++ ".tmp")

def isPresent (store : Store) (disk : Disk) : Except Fault Bool :=
  (disk.isFile store.path).mapError .disk

/-- How many bytes the full path of an artifact may have. -/
def pathLimit : Nat := 504

/-- How many bytes the names of drafts have. -/
def draftWidth : Nat := 46

/-- Whether a file in the directory of a path can be used, if its name has `width` bytes. -/
def isReachable (disk : Disk) (directory : Path) (width : Nat) : Bool :=
  (Path.text ⟨.slash, disk.resolve directory⟩).byteCount + 1 + width ≤ pathLimit

/-- The number of the artifact's file at `path`. -/
def connect (disk : Disk) (path : Path) : Except Fault Nat :=
  match disk.openFile path with
  | .ok serial =>
      if isReachable disk path.parent path.name.byteCount then .ok serial
      else .error (.indexIo path .cannotOpen)
  | .error _ => .error (.indexIo path .cannotOpen)

/-- The content of the artifact's file with this number, which is opened at `path`. -/
def contentOf (disk : Disk) (path : Path) (serial : Nat) : Except Fault Artifact.Content :=
  match (disk.body serial).content? with
  | some content => .ok content
  | none => .error (.indexIo path .unreadable)

/-- The content of the artifact now at `path`. -/
def contentAt (disk : Disk) (path : Path) : Except Fault Artifact.Content := do
  contentOf disk path (← connect disk path)

def load (store : Store) (disk : Disk) : Except Fault Artifact.Stored :=
  do
    if ← store.isPresent disk then
      Artifact.Stored.load store.path (← contentAt disk store.path)
    else .error (.indexMissing store.path)

/-- What is told about an artifact beside the index. -/
structure Details where
  root : Text.RawText
  created : String
  nonce : String
deriving DecidableEq, Repr

/-- Removes a draft that is not needed. -/
def discard (disk : Disk) (draft : Path) : Disk :=
  match disk.remove draft with
  | .ok after => after
  | .error _ => disk

/-- Begins a draft in a directory that is there. -/
def begin (store : Store) (disk : Disk) (nonce : String) : Except Fault Disk :=
  let draft := store.draft nonce
  match disk.write draft ⟨.bytes [], 0⟩ with
  | .ok begun =>
      if isReachable disk store.directory draftWidth then .ok begun
      else .error (.indexIo draft .cannotBegin)
  | .error _ => .error (.indexIo draft .cannotBegin)

/-- The phases in which an artifact is written beside the old one and takes its place. -/
inductive Phase where
  | opening
  | filling
  | moving
deriving DecidableEq, Repr

def Phase.all : List Phase := [.opening, .filling, .moving]

/-- Goes through a phase. A fault leaves the disk as it was before. -/
def perform (store : Store) (index : Index) (skipped : List SkippedFile) (details : Details)
    (disk : Disk) : Phase → Except Fault Disk
  | .opening => store.begin disk details.nonce
  | .filling => do
      let draft := store.draft details.nonce
      let tables ← Artifact.encode draft index skipped details.root details.created
      (disk.write draft ⟨.artifact tables, 0⟩).mapError (fun _ => .indexIo draft .cannotBegin)
  | .moving =>
      (disk.move (store.draft details.nonce) store.path).mapError
        (fun error => .indexIo store.path (.cannotInstall error))

/-- Goes through phases, up to the first one that fails. Then `clear` tidies up. -/
def installBy (store : Store) (go : Disk → Phase → Except (Fault × Disk) Disk)
    (clear : Disk → Disk) (disk : Disk) : Except Fault Path × Disk :=
  match Phase.all.foldlM go disk with
  | .ok installed => (.ok store.path, installed)
  | .error (fault, left) => (.error fault, clear left)

/-- Begins a draft, fills it and gives it the name of the artifact. -/
def install (store : Store) (disk : Disk) (index : Index) (skipped : List SkippedFile)
    (details : Details) : Except Fault Path × Disk :=
  store.installBy
    (fun disk phase => (store.perform index skipped details disk phase).mapError (·, disk))
    (fun left => discard left (store.draft details.nonce)) disk

/-- The directory of a store, made if it is not there. -/
def prepare (store : Store) (disk : Disk) : Except Fault Unit × Disk :=
  match disk.makeDirs store.directory with
  | (.ok (), after) => (.ok (), after)
  | (.error .nullByte, after) => (.error (.disk .nullByte), after)
  | (.error error, after) => (.error (.indexIo store.directory (.cannotCreate error)), after)

/-- Goes on once the directory is there. -/
def within (store : Store) (disk : Disk) (body : Disk → Except Fault Path × Disk) :
    Except Fault Path × Disk :=
  match store.prepare disk with
  | (.error fault, after) => (.error fault, after)
  | (.ok (), after) => body after

/-- Writes an index and replaces the artifact that is there. -/
def save (store : Store) (disk : Disk) (index : Index) (skipped : List SkippedFile)
    (details : Details) : Except Fault Path × Disk :=
  store.within disk (fun ready => store.install ready index skipped details)

def savedNote (index : Index) (path : Path) : Logging.Note :=
  ⟨.info, "looker.search.sqlite_storage",
    "Saved index with " ++ toString index.fileCount ++ " files to " ++ path.text⟩

end Store

end TokenSearch
