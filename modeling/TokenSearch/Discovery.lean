import TokenSearch.Disk.Files
import TokenSearch.Logging.Level
import TokenSearch.Text.Lowercase

namespace TokenSearch

/-! Finding and reading the source files under a root. -/

namespace Discovery

def logger : String := "looker.discovery"

def tooLarge : String := "too_large"
def unreadable : String := "io_error"

/-- Which files are wanted: those with one of the suffixes, outside the directories that are skipped
by name or left out as a place. -/
structure Filter where
  extensions : List String
  skipDirs : List String
  excluded : Option (List Text.RawText)
deriving DecidableEq, Repr

def defaultExtensions : List String := [".c", ".h"]
def defaultSkipDirs : List String := [".git", ".hg", ".svn"]

/-- Whether a file name has a wanted suffix; case does not count. -/
def Filter.wants (filter : Filter) (name : Text.RawText) : Bool :=
  (suffixOf name).toString?.any (fun suffix =>
    Text.lowercase suffix ∈ filter.extensions.map Text.lowercase)

/-- Whether a directory is not entered. -/
def Filter.prunes (filter : Filter) (disk : Disk) (path : Path) (name : Text.RawText) : Bool :=
  filter.skipDirs.any (fun skipped => name = Text.RawText.ofString skipped) ||
    filter.excluded = some (disk.resolve path)

/-- What a walk comes to: a wanted file, or a directory that cannot be listed. -/
inductive Sight where
  | file (path : Path)
  | barred (path : Path) (error : Disk.Error)
deriving Repr

def Sight.file? : Sight → Option Path
  | .file path => some path
  | .barred _ _ => none

/-- The wanted files among what a walk comes to. -/
def filesOf (sights : List Sight) : List Path := sights.filterMap Sight.file?

mutual

/-- What a walk comes to at the entry `name` of the directory `here`. A directory is walked through
unless it is pruned or cannot be listed; a link is looked at only as a file. -/
def visitNode (disk : Disk) (filter : Filter) (here : Path) (name : Text.RawText) :
    Disk.Node → Except Disk.Error (List Sight)
  | .dir entries =>
      if filter.prunes disk (here.child name) name then .ok []
      else
        match disk.scan (here.child name) with
        | .ok _ => visit disk filter (here.child name) entries
        | .error error => .ok [.barred (here.child name) error]
  | _ => do
      if filter.wants name then
        if ← disk.isFile (here.child name) then return [.file (here.child name)]
      return []

/-- What a walk comes to in and below the directory `here`. -/
def visit (disk : Disk) (filter : Filter) (here : Path) :
    Disk.Entries → Except Disk.Error (List Sight)
  | .nil => .ok []
  | .cons name node rest => do
      return (← visitNode disk filter here name node) ++ (← visit disk filter here rest)

end

/-- The path of a file as seen from the root, or the path itself if it lies elsewhere. -/
def relativeText (root path : Path) : Text.RawText :=
  ((path.relativeTo? root).getD path).text

/-- The path of a file as seen from the root, as it is told. Names that are no text have no place in an
index here: what cannot be told is replaced. -/
def relativeName (root path : Path) : String :=
  (relativeText root path).toStringLossy

def inOrder (root : Path) (paths : List Path) : List Path :=
  paths.mergeSort (fun a b => (relativeText root a).precedes (relativeText root b))

/-- What was found, and what is to be said about it. -/
structure Found where
  paths : List Path
  notes : List Logging.Note
deriving Repr

def countNote (root : Path) (count : Nat) : Logging.Note :=
  ⟨.debug, logger, "Discovered " ++ toString count ++ " source files under " ++ root.text⟩

def barredNote (path : Path) (error : Disk.Error) : Logging.Note :=
  ⟨.warning, logger, "Cannot read directory " ++ path.text ++ ": " ++ error.reason⟩

/-- The directories that could not be listed, in the order in which a walk comes to them: each
directory before what it holds, and the names in one directory in ascending order. -/
def barredOf (sights : List Sight) : List (Path × Disk.Error) :=
  let barred := sights.filterMap (fun
    | .file _ => none
    | .barred path error => some (path, error))
  let way (path : Path) := path.parts.map Text.RawText.points
  barred.mergeSort (fun a b => decide (way a.1 ≤ way b.1))

/-- What a walk under `root` comes to. -/
def survey (disk : Disk) (root : Path) (filter : Filter) : Except Fault (List Sight) :=
  match disk.scan root with
  | .ok entries => (visit disk filter root entries).mapError .disk
  | .error .nullByte => .error (.disk .nullByte)
  | .error error => .ok [.barred root error]

def Found.ofSights (root : Path) (sights : List Sight) : Found :=
  let paths := inOrder root (filesOf sights)
  ⟨paths, (barredOf sights).map (fun (path, error) => barredNote path error) ++
    [countNote root paths.length]⟩

/-- The wanted files under `root`, in ascending order of their paths below it. -/
def discover (disk : Disk) (root : Path) (filter : Filter) : Except Fault Found := do
  return .ofSights root (← survey disk root filter)

/-- The place to be left out. A link that leads in circles has none. -/
def exclude (disk : Disk) (path : Path) : Except Fault (List Text.RawText) :=
  if path.hasNull then .error (.disk .nullByte)
  else
    let names := disk.resolve path
    match disk.stat ⟨.slash, names⟩ with
    | .error (.refused .tooManyLinks _) => .error (.linkLoop (Path.text ⟨.slash, names⟩))
    | _ => .ok names

/-- The outcome for one file: its bytes, or why it is left out. -/
inductive Reading where
  | source (file : SourceFile)
  | skipped (file : SkippedFile)
deriving Repr

/-- What is said of a file that cannot be read; a path that is none is a fault. -/
def refused (name : String) : Disk.Error → Except Fault Reading
  | .nullByte => .error (.disk .nullByte)
  | error => .ok (.skipped ⟨name, unreadable, error.message, none⟩)

def readOne (disk : Disk) (root : Path) (limit : Int) (path : Path) : Except Fault Reading :=
  let name := relativeName root path
  match disk.stat path with
  | .error error => refused name error
  | .ok node =>
      let size := disk.sizeOf node
      if limit < size then
        .ok (.skipped ⟨name, tooLarge,
          toString size ++ " bytes exceeds limit of " ++ toString limit, none⟩)
      else
        match disk.openFile path with
        | .error error => refused name error
        | .ok serial =>
            match disk.system.read (disk.body serial) with
            | .error error => refused name error
            | .ok content => .ok (.source ⟨name, content, some (disk.modified serial)⟩)

structure Readings where
  sources : List SourceFile
  skipped : List SkippedFile
deriving Repr

/-- The files that were read, and those that were left out. -/
def Readings.ofOutcomes (outcomes : List Reading) : Readings :=
  ⟨outcomes.filterMap (fun | .source file => some file | .skipped _ => none),
    outcomes.filterMap (fun | .source _ => none | .skipped file => some file)⟩

def skipNote (skipped : SkippedFile) : Logging.Note :=
  ⟨.warning, logger, "Skipping " ++ skipped.path ++ ": " ++ skipped.message⟩

end Discovery

end TokenSearch
