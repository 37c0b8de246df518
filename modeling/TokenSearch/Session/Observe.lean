import TokenSearch.CommandLine.Run
import TokenSearch.Session.Handle

namespace TokenSearch.Session

/-! Steps that look at what was logged, counted and traced. -/

/-- The log records since the last call, oldest first. -/
def takeRecords : Step (List LogRecord) := do
  let session ← get
  set { session with world := { session.world with records := [] } }
  return session.world.records.reverse

/-- The spans that ended since the last call, oldest first. -/
def takeSpans : Step (List Telemetry.Span) := do
  let session ← get
  set { session with world := { session.world with spans := [] } }
  return session.world.spans.reverse

/-- The metrics, which are also written to a file. -/
def metrics (path : Path) : Step Telemetry.Metrics := do
  let world := (← get).world
  let disk ← Step.ofExcept ((CommandLine.writeMetrics world.metrics world.chance.process path
    world.disk).mapError .disk)
  modify (fun session => { session with world := { session.world with disk } })
  return world.metrics

/-- Runs the program. Its log goes to its own output, and its spans go elsewhere. -/
def runProgram (arguments : List Text.RawText) : Step CommandLine.Output := do
  let before := (← get).world
  let quiet (world : World) : World := { world with records := [], spans := [] }
  modify (fun session => { session with world := quiet session.world })
  let result ← ExceptT.lift (ExceptT.run (lift (CommandLine.run arguments)))
  modify (fun session => { session with world :=
    { session.world with records := before.records, spans := before.spans } })
  Step.ofExcept result

/-- A span around nothing, or around a fault in the given words. Whether its ids are those of the
context; without a tracer there is no span. Attributes without a value that they can have are left
out. -/
def trace (operation : String) (attributes : List (String × Option Telemetry.Attribute))
    (fault : Option String) (tracer : Bool) : Step Bool := do
  if attributes.any (fun (name, _) => name = "operation") then throw (.misfit .repeatedName)
  let body : Run Unit := match fault with
    | some words => throw (.stated words)
    | none => pure ()
  if tracer then
    let sound := attributes.filterMap (fun (name, value) => value.map (fun value => (name, value)))
    lift (Run.traced operation sound (do body; return ((), [])))
    return true
  else
    lift body
    return false

/-- What is done to the context, in this order. -/
structure ContextChange where
  reset : Bool
  root : Option Text.RawText
  span : Option (String × String)

def changeContext (change : ContextChange) : Step Telemetry.RunContext := do
  let session ← get
  let world := if change.reset then { session.world with context := none } else session.world
  let world := match change.root with
    | some root => world.bindRoot root
    | none => world
  let world := match change.span with
    | some (trace, span) => world.bindSpan trace span
    | none => world
  let context := world.currentContext
  set { session with world := { world with context := some context } }
  return context

/-- Starts tracing and, if an endpoint is spoken of, the sending of spans. -/
def startTracing (version : Option String) (endpoint : Option (Option String)) :
    Step (Option Bool) := do
  lift (CommandLine.startTracing version)
  match endpoint with
  | none => return none
  | some address => return some (← lift (CommandLine.startExport address))

/-- How the file of an artifact begins. A session shows no more of it. -/
def artifactImage : Bytes := Text.Utf8.encodeString "SQLite format 3\x00"

/-- A session in an empty directory. -/
def start (directory : String) (chance : Chance) (environment : Data.Assoc String String) :
    Session where
  world := {
    disk := {
      root := .cons directory (.dir .nil) .nil
      current := [.ofString directory]
      records := []
      next := 0
      system := ⟨fun _ => artifactImage, fun _ => none⟩ }
    environment
    homes := .plain
    chance
    context := none
    metrics := .empty
    records := []
    spans := [] }
  handles := []

end TokenSearch.Session
