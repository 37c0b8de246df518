import TokenSearch.Discovery
import TokenSearch.Settings.Load
import TokenSearch.Telemetry.Metrics
import TokenSearch.Telemetry.Trace

namespace TokenSearch

/-! The state in which operations run: the disk, the environment, the home directories, and what was
logged, counted and traced; and the settings of a run, as that state gives them. -/

/-- A log record with the root it is about. -/
structure LogRecord where
  note : Logging.Note
  root : Option Text.RawText
deriving DecidableEq, Repr

/-- What is read off clocks and dice: the time of writing, elapsed times in the forms in which they
are shown, a nonce, the process, fresh ids, and the time and the ids that log lines show. -/
structure Chance where
  created : String
  elapsedShort : String
  elapsedLong : String
  elapsedNumber : String
  nonce : String
  process : String
  trace : String
  span : String
  shownTime : String
  shownTrace : String
  shownSpan : String
deriving DecidableEq, Repr, Inhabited

structure World where
  disk : Disk
  environment : Data.Assoc String String
  homes : Settings.Homes
  chance : Chance
  context : Option Telemetry.RunContext
  metrics : Telemetry.Metrics
  /-- The latest record stands first. -/
  records : List LogRecord
  /-- The latest span stands first. -/
  spans : List Telemetry.Span

/-- A computation on the world. A fault leaves behind what was done before it. -/
abbrev Run := ExceptT Fault (StateM World)

namespace World

/-- The home directories as the environment has them. -/
def home (world : World) : Settings.Homes := world.homes.within world.environment

/-- The context of the work at hand; a fresh one if there is none. -/
def currentContext (world : World) : Telemetry.RunContext :=
  world.context.getD ⟨world.chance.trace, world.chance.span, none⟩

def bindRoot (world : World) (root : Text.RawText) : World :=
  { world with context := some { world.currentContext with root := some root } }

def bindSpan (world : World) (trace span : String) : World :=
  { world with context := some { world.currentContext with trace, span } }

def log (world : World) (root : Option Text.RawText) (note : Logging.Note) : World :=
  { world with records := ⟨note, root⟩ :: world.records }

end World

namespace Run

def ofExcept (result : Except Fault α) : Run α :=
  match result with
  | .ok a => pure a
  | .error fault => throw fault

/-- Logs a note about the root at hand. -/
def note (note : Logging.Note) : Run Unit :=
  modify (fun world => world.log (world.context.bind (fun context => context.root)) note)

def notes (notes : List Logging.Note) : Run Unit :=
  notes.forM note

/-- Logs notes of workers, who know no root. -/
def workerNotes (notes : List Logging.Note) : Run Unit :=
  notes.forM (fun note => modify (fun world => world.log none note))

def onDisk (f : Disk → α) : Run α := do
  return f (← get).disk

/-- Runs an operation that may change the disk even where it fails. -/
def changeDisk (f : Disk → Except Fault α × Disk) : Run α := do
  let (result, disk) := f (← get).disk
  modify (fun world => { world with disk })
  ofExcept result

def bindRoot (root : Path) : Run Unit :=
  modify (fun world => world.bindRoot root.text)

/-- Counts with the metrics. -/
def count (f : Telemetry.Metrics → Telemetry.Metrics) : Run Unit :=
  modify (fun world => { world with metrics := f world.metrics })

/-- Runs `body`, then `after`, whether `body` fails or not. -/
def finally_ (body : Run α) (after : Run Unit) : Run α := do
  let result ← ExceptT.lift (ExceptT.run body)
  after
  ofExcept result

/-- Runs `body` inside a span. Its ids are bound to the context, and what `body` tells at its end
is added to the attributes. -/
def traced (operation : String) (attributes : Telemetry.Attributes)
    (body : Run (α × Telemetry.Attributes)) : Run α := do
  modify (fun world => world.bindSpan world.chance.trace world.chance.span)
  let finish (more : Telemetry.Attributes) (fault : Option Fault) : Run Unit :=
    let kept := (attributes ++ more).foldl (fun kept (name, value) =>
      Telemetry.setAttribute kept (Telemetry.qualify name) value) []
    modify (fun world => { world with
      spans := ⟨Telemetry.qualify operation, kept, fault⟩ :: world.spans })
  match ← ExceptT.lift (ExceptT.run body) with
  | .ok (a, more) =>
      finish more none
      return a
  | .error fault =>
      finish [] (some fault)
      throw fault

end Run

namespace Service

/-- The file of variables in the working directory. -/
def variablesFile : Path := .ofString ".env"

/-- The content of the file of variables, if there is one. -/
def variablesContent : Run (Option Bytes) := do
  let disk := (← get).disk
  if ← Run.ofExcept ((disk.isFile variablesFile).mapError .disk) then
    match disk.read variablesFile with
    | .ok content => return some content
    | .error error => throw (.disk error)
  else return none

/-- Settings from given values, the environment and the file of variables. -/
def configure (arguments : Settings.Input) : Run Settings := do
  let content ← variablesContent
  Run.ofExcept (Settings.load arguments (← get).environment content)

end Service

end TokenSearch
