import TokenSearch.Disk.Resolve

namespace TokenSearch.Disk

/-! Reading, writing and moving files. An operation that fails leaves the disk as it was, unless it
returns another one. -/

def record? (disk : Disk) (serial : Nat) : Option Record :=
  Data.Assoc.get? disk.records serial

def body (disk : Disk) (serial : Nat) : Body :=
  ((disk.record? serial).map Record.body).getD (.bytes [])

def modified (disk : Disk) (serial : Nat) : Int :=
  ((disk.record? serial).map Record.modified).getD 0

/-- What a directory takes up. -/
def directorySize : Nat := 4096

/-- The size of a file in bytes; a damaged file shows none. -/
def System.sizeOf (system : System) : Body → Nat
  | .bytes content => content.length
  | .artifact tables => (system.image tables).length
  | .damaged => 0

def sizeOf (disk : Disk) : Node → Nat
  | .file serial => disk.system.sizeOf (disk.body serial)
  | _ => directorySize

/-- The number of the file at a path. -/
def openFile (disk : Disk) (path : Path) : Except Error Nat := do
  match ← disk.stat path with
  | .file serial => return serial
  | _ => fail .isDirectory path

def System.read (system : System) : Body → Except Error Bytes
  | .bytes content => .ok content
  | .artifact tables => .ok (system.image tables)
  | .damaged => .error (.refused .inputOutput .unnamed)

def read (disk : Disk) (path : Path) : Except Error Bytes := do
  disk.system.read (disk.body (← disk.openFile path))

def setNode (disk : Disk) (names : List Text.RawText) (node : Option Node) : Disk :=
  { disk with root := disk.root.set node names }

/-- Changes what a file holds, in its place. -/
def overwrite (disk : Disk) (serial : Nat) (record : Record) : Disk :=
  { disk with records := Data.Assoc.put disk.records serial record }

/-- A new file under the given names. -/
def create (disk : Disk) (names : List Text.RawText) (record : Record) : Disk :=
  { disk with
    root := disk.root.set (some (.file disk.next)) names
    records := Data.Assoc.put disk.records disk.next record
    next := disk.next + 1 }

/-- Writes a file: in its place if it is there, else as a new file. -/
def write (disk : Disk) (path : Path) (record : Record) : Except Error Disk := do
  let place ← disk.locateBy .writing path
  match place.node with
  | some (.file serial) => return disk.overwrite serial record
  | some _ => fail .isDirectory path
  | none => return disk.create place.names record

/-- A new directory; its parent must be there. -/
def makeDir (disk : Disk) (path : Path) : Except Error Disk := do
  let place ← disk.locateLink path
  match place.node with
  | some _ => fail .alreadyExists path
  | none => return disk.setNode place.names (some (.dir .nil))

/-- A directory that is there already is as good as a new one. -/
def settle (disk : Disk) (path : Path) (error : Error) : Except Error Unit × Disk :=
  match error, disk.isDir path with
  | .refused _ _, .ok true => (.ok (), disk)
  | _, _ => (.error error, disk)

/-- A directory with all its parents. Parents that were made stay, also if the directory itself
cannot be made. -/
def makeDirs (disk : Disk) (path : Path) : Except Error Unit × Disk :=
  match disk.makeDir path with
  | .ok after => (.ok (), after)
  | .error error =>
      if error.isMissing then
        if path.parts.isEmpty then (.error error, disk)
        else
          match makeDirs disk path.parent with
          | (.error error, after) => (.error error, after)
          | (.ok (), after) =>
              match after.makeDir path with
              | .ok last => (.ok (), last)
              | .error error =>
                  if error.isMissing then (.error error, after)
                  else after.settle path error
      else disk.settle path error
termination_by path.parts.length
decreasing_by
  rename_i filled
  have positive : 0 < path.parts.length := by
    cases names : path.parts with
    | nil => simp [names] at filled
    | cons _ _ => simp
  simp only [Path.parent, List.length_dropLast]
  omega

/-- Removes a file or a link. -/
def remove (disk : Disk) (path : Path) : Except Error Disk := do
  let place ← disk.locateLink path
  match place.node with
  | some (.dir _) => fail .isDirectory path
  | some _ => return disk.setNode place.names none
  | none => fail .notFound path

/-- The error of removing an empty directory under a path that ends in dots, if it does. -/
def dotted? (disk : Disk) (path : Path) : Option Error :=
  let subject : Subject := .path path.text
  match path.parts.getLast? with
  | none => some (.refused .invalid subject)
  | some name =>
      if name = Path.above then
        match disk.stat path.parent with
        | .ok _ => some (.refused .notEmpty subject)
        | .error error => some (error.about subject)
      else none

/-- Removes a file, a link, or a directory with all it holds. What a directory holds goes first, and
is gone also if the directory itself has to stay. -/
def removeAll (disk : Disk) (path : Path) : Except Error Unit × Disk :=
  match disk.locateLink path with
  | .error error => (.error error, disk)
  | .ok place =>
      match place.node with
      | some (.dir _) =>
          let cleared := disk.setNode place.names (some (.dir .nil))
          match cleared.dotted? path with
          | some error => (.error error, cleared)
          | none => (.ok (), disk.setNode place.names none)
      | some _ => (.ok (), disk.setNode place.names none)
      | none => (fail .notFound path, disk)

/-- Gives a file another name, in place of what had that name; a directory is not replaced. -/
def move (disk : Disk) (source target : Path) : Except Error Disk :=
  let subject : Subject := .move source.text target.text
  match disk.locateLink source, disk.locateLink target with
  | .error error, _ => .error (error.about subject)
  | _, .error error => .error (error.about subject)
  | .ok old, .ok new =>
      match old.node, new.node with
      | none, _ => .error (.refused .notFound subject)
      | some _, some (.dir _) => .error (.refused .isDirectory subject)
      | some node, _ => .ok ((disk.setNode new.names (some node)).setNode old.names none)

/-- A link that leads to `target`, as seen from the directory of the link. -/
def link (disk : Disk) (path : Path) (target : Text.RawText) : Except Error Disk :=
  let subject : Subject := .move target path.text
  if target.hasNull || path.hasNull then .error .nullByte
  else if target.isEmpty then .error (.refused .notFound subject)
  else if pathLimit < target.byteCount then .error (.refused .nameTooLong subject)
  else
    match disk.locateLink path with
    | .error error => .error (error.about subject)
    | .ok place =>
        match place.node with
        | some _ => .error (.refused .alreadyExists subject)
        | none => .ok (disk.setNode place.names (some (.link target)))

/-- What a directory holds, as it is listed. -/
def scan (disk : Disk) (path : Path) : Except Error Entries := do
  let place ← disk.locate path
  match place.node with
  | some (.dir entries) =>
      match disk.system.sealed place.names with
      | some cause => fail cause path
      | none => return entries
  | some _ => fail .notDirectory path
  | none => fail .notFound path

/-- The names in a directory, in ascending order. -/
def list (disk : Disk) (path : Path) : Except Error (List Text.RawText) := do
  return (← disk.scan path).names.mergeSort Text.RawText.precedes

end TokenSearch.Disk
