import TokenSearch.Artifact.Format
import TokenSearch.CommandLine.Run
import TokenSearch.Decimal.Rounded
import TokenSearch.Logging.Timestamp

namespace TokenSearch.CommandLine

/-! Which files a run is about, known before it starts. -/

structure Plan where
  root : Path
  filter : Discovery.Filter
  artifact : Path
  metrics : Option Path

/-- The plan of a run; arguments or settings that do not do have none. -/
def plan? (arguments : List Text.RawText) (environment : Data.Assoc String String)
    (bindings : Option Bytes) : Option Plan := do
  let parsed ← (parse arguments).toOption
  let settings ← (Settings.load [] environment bindings).toOption
  let settings := override parsed settings
  let homes := Settings.Homes.plain.within environment
  let root ← parsed.command.root
  let directory ← (settings.indexDirOf homes root).toOption
  return {
    root
    filter := ⟨settings.suffixes, settings.skippedNames, none⟩
    artifact := Store.path ⟨directory⟩
    metrics := settings.metricsFile.map Path.ofText }

/-- The paths of a plan, beside the root. -/
def Plan.targets (plan : Plan) : List Path := plan.artifact :: plan.metrics.toList

/-- The variables that a run may ask for. -/
def variableNames : List String :=
  "HOME" :: Settings.Field.all.map (fun field =>
    (Settings.variableStart ++ field.name).toUpper)

/-- The directories above a path, the outermost one first. -/
def ancestors (path : Path) : List Path :=
  (List.range path.parts.length).map (fun count => ⟨path.anchor, path.parts.take count⟩)

/-- What a file holds whose bytes are `content`. -/
def bodyOf (content : Bytes) : Disk.Body :=
  match Artifact.Tables.ofBytes? content with
  | some tables => .artifact tables
  | none => .bytes content

/-- Puts a directory onto a disk. -/
def addDirectory (disk : Disk) (path : Path) : Disk := (disk.makeDirs path).2

/-- Puts a file onto a disk, with the directories above it. -/
def addFile (disk : Disk) (path : Path) (record : Disk.Record) : Disk :=
  let above := addDirectory disk path.parent
  match above.write path record with
  | .ok after => after
  | .error _ => above

/-- What a file on a disk holds. -/
def bodyAt? (disk : Disk) (path : Path) : Option Disk.Body :=
  match disk.openFile path with
  | .ok serial => some (disk.body serial)
  | .error _ => none

/-- The files of a plan that a run has changed and that can be read, with their new bytes. -/
def Plan.changes (plan : Plan) (before after : Disk) : List (Path × Bytes) :=
  plan.targets.filterMap (fun path =>
    match bodyAt? after path with
    | some body =>
        if bodyAt? before path = some body then none
        else (after.system.read body).toOption.map (fun content => (path, content))
    | none => none)

/-- A text that ends its last line. -/
def closed (text : String) : String :=
  if text.isEmpty || text.endsWith "\n" then text else text ++ "\n"

/-- An empty disk on which relative paths are seen from `current`. -/
def emptyDisk (current : Path) : Disk :=
  let system : Disk.System := ⟨Artifact.Tables.toBytes, fun _ => none⟩
  addDirectory { root := .nil, current := current.parts, records := [], next := 0, system } current

/-- The state in which a run starts. -/
def startWorld (disk : Disk) (environment : Data.Assoc String String) (chance : Chance) :
    World where
  disk
  environment
  homes := .plain
  chance
  context := none
  metrics := .empty
  records := []
  spans := []

/-- What clocks and dice give: the time in seconds and nanoseconds, a random number, and how many
nanoseconds the work takes. -/
def chanceOf (seconds : Int) (nanoseconds random elapsed : Nat) : Chance :=
  let now : Logging.Instant := ⟨seconds, nanoseconds / 1000⟩
  let spent := elapsed.toFloat / 1000000000
  let places (count : Nat) := (Decimal.Style.fixed.parts count false spent).2
  let hex (width salt : Nat) :=
    String.ofList (Text.Hex.fixed width ((random + salt) % Nat.pow 16 width))
  { created := now.text
    elapsedShort := places 2
    elapsedLong := places 4
    elapsedNumber := Json.layout.text spent
    nonce := hex 32 1
    process := toString (random % 100000)
    trace := hex 32 2
    span := hex 16 3
    shownTime := now.text
    shownTrace := hex 32 2
    shownSpan := hex 16 3 }

end TokenSearch.CommandLine
