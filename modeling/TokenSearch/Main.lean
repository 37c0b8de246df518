import TokenSearch.CommandLine.Plan

/-! The program: the files that a run is about are read, the run itself is a function of them, and
the files that it changed are written. -/

namespace TokenSearch.Main

def toBytes (content : ByteArray) : Bytes := content.toList

def ofBytes (content : Bytes) : ByteArray := ⟨content.toArray⟩

/-- Reads the file at a path of the program, if there is one. -/
def contentAt? (path : Path) : IO (Option (Bytes × Int)) := do
  let file := (← IO.currentDir) / path.toString
  try
    let details ← file.metadata
    if details.type matches .file then
      let content ← IO.FS.readBinFile file
      return some (toBytes content, details.modified.sec * 1000000000 + details.modified.nsec.toNat)
    else return none
  catch _ => return none

def isDirectory (path : Path) : IO Bool := do
  ((← IO.currentDir) / path.toString).isDir

/-- Puts a path and what is above it onto a disk, as far as it is there. -/
def loadPath (disk : Disk) (path : Path) : IO Disk := do
  let mut disk := disk
  for step in CommandLine.ancestors path ++ [path] do
    if ← isDirectory step then disk := CommandLine.addDirectory disk step
    else if let some (content, modified) ← contentAt? step then
      disk := CommandLine.addFile disk step ⟨CommandLine.bodyOf content, modified⟩
  return disk

/-- Puts the wanted files below a directory onto a disk. Links to directories are not followed. -/
partial def loadTree (filter : Discovery.Filter) (disk : Disk) (path : Path) : IO Disk := do
  let mut disk := CommandLine.addDirectory disk path
  for entry in ← ((← IO.currentDir) / path.toString).readDir do
    let name := Text.RawText.ofString entry.fileName
    let below := path.child name
    let details ← entry.path.symlinkMetadata
    if details.type matches .dir then
      if !filter.prunes disk below name then disk ← loadTree filter disk below
    else if filter.wants name then
      if let some (content, modified) ← contentAt? below then
        disk := CommandLine.addFile disk below ⟨.bytes content, modified⟩
  return disk

/-- Reads what a run is about. -/
def loadDisk (plan : Option CommandLine.Plan) : IO Disk := do
  let mut disk := CommandLine.emptyDisk (.ofString (← IO.currentDir).toString)
  disk ← loadPath disk Service.variablesFile
  match plan with
  | none => return disk
  | some plan =>
      for path in plan.root :: plan.targets do
        disk ← loadPath disk path
      if ← isDirectory plan.root then loadTree plan.filter disk plan.root else return disk

/-- Writes a file beside its place, then moves it there. -/
def install (path : Path) (content : Bytes) (nonce : String) : IO Unit := do
  let here ← IO.currentDir
  let draft := here / (path.parent.child ("." ++ path.name ++ "." ++ nonce ++ ".tmp")).toString
  IO.FS.createDirAll (here / path.parent.toString)
  IO.FS.writeBinFile draft (ofBytes content)
  IO.FS.rename draft (here / path.toString)

/-- The time, read off a fresh file. -/
def now : IO (Int × Nat) := do
  let (_, file) ← IO.FS.createTempFile
  let details ← file.metadata
  IO.FS.removeFile file
  return (details.modified.sec, details.modified.nsec.toNat)

/-- The environment of the program. -/
def environmentOf : IO (Data.Assoc String String) := do
  let mut found := []
  for name in CommandLine.variableNames do
    if let some value ← IO.getEnv name then found := (name, value) :: found
  return found.reverse

/-- Runs the program, and once more with the time that the first run took. -/
def run (arguments : List String) : IO UInt32 := do
  let begun ← IO.monoNanosNow
  let raw := arguments.map Text.RawText.ofString
  let environment ← environmentOf
  let file ← contentAt? Service.variablesFile
  let plan := CommandLine.plan? raw environment (file.map Prod.fst)
  let disk ← loadDisk plan
  let (seconds, nanoseconds) ← now
  let random ← IO.rand 0 (Decimal.twoTo 62)
  let attempt (elapsed : Nat) : IO (Except Fault CommandLine.Output × World) :=
    IO.lazyPure (fun _ => (CommandLine.run raw).run
      (CommandLine.startWorld disk environment
        (CommandLine.chanceOf seconds nanoseconds random elapsed)))
  let _ ← attempt 0
  let (result, world) ← attempt ((← IO.monoNanosNow) - begun)
  if let some plan := plan then
    for (path, content) in plan.changes disk world.disk do
      install path content world.chance.nonce
  match result with
  | .ok output =>
      IO.print output.stdout.toStringLossy
      IO.eprint (CommandLine.closed output.stderr.toStringLossy)
      return output.code.toUInt32
  | .error fault =>
      IO.eprintln (fault.label ++ ": " ++ fault.message.toStringLossy)
      return 1

end TokenSearch.Main

/-- Builds, searches or audits the index of a tree of source files. -/
def main (arguments : List String) : IO UInt32 :=
  TokenSearch.Main.run arguments
