import TokenSearch.CommandLine.Arguments
import TokenSearch.CommandLine.Output
import TokenSearch.Logging.Line
import TokenSearch.Service.World

namespace TokenSearch.CommandLine

/-! A whole run of the program: arguments, settings, the command, and the metrics at the end. -/

def logger : String := "looker.cli"

/-- What a run leaves behind. -/
structure Output where
  code : Nat
  stdout : Text.RawText
  stderr : Text.RawText
deriving DecidableEq, Repr

/-- The characters at the front of a text that take at most `limit` bytes. -/
def takeBytes (limit : Nat) : List Char → List Char
  | [] => []
  | c :: rest => if c.utf8Size ≤ limit then c :: takeBytes (limit - c.utf8Size) rest else []

/-- A text of more than fifty bytes is shown by its two ends. -/
def abridge (text : String) : String :=
  if text.utf8ByteSize ≤ 50 then text
  else
    String.ofList (takeBytes 25 text.toList) ++ "..." ++
      String.ofList (takeBytes 24 text.toList.reverse).reverse

def givenText : Settings.Given → String × String
  | .text value => (Text.Quoted.text value, "str")
  | .named values =>
      ("\x7b" ++ ", ".intercalate (values.map (fun (name, value) =>
        Text.Quoted.text name ++ ": " ++ Text.Quoted.text value)) ++ "\x7d", "dict")

def problemText (problem : Settings.Problem) : String :=
  let (shown, kind) := givenText problem.given
  let place := match problem.field with
    | some field => field.name ++ "\n"
    | none => ""
  place ++ "  " ++ problem.cause.message ++ " [type=" ++ problem.cause.code ++ ", input_value=" ++
    abridge shown ++ ", input_type=" ++ kind ++ "]"

def invalidSettings (problems : List Settings.Problem) : String :=
  let count := problems.length
  programName ++ ": invalid configuration: " ++ toString count ++ " validation error" ++
    (if count = 1 then "" else "s") ++ " for Settings\n" ++
    "\n".intercalate (problems.map problemText) ++ "\n"

/-- Arguments win over settings; an empty index directory does not count. -/
def override (arguments : Arguments) (settings : Settings) : Settings :=
  let settings := match arguments.indexDir with
    | .value text => if text.isEmpty then settings else { settings with indexDir := text }
    | _ => settings
  match arguments.metricsFile with
  | .value path => { settings with metricsFile := some path.text }
  | _ => settings

def tracingLogger : String := "looker.observability.tracing"

/-- Announces that tracing starts. -/
def startTracing (version : Option String) : Run Unit :=
  let name := match version with
    | some text => if text.isEmpty then "unknown" else text
    | none => "unknown"
  Run.note ⟨.debug, tracingLogger, "Tracing initialized (version=" ++ name ++ ")"⟩

/-- Sends spans to an endpoint, if there is one. -/
def startExport (endpoint : Option String) : Run Bool := do
  match endpoint with
  | none => return false
  | some address =>
      if address.isEmpty then return false
      Run.note ⟨.info, tracingLogger, "OTLP trace export enabled to " ++ address⟩
      return true

/-- Writes the metrics beside their place, then moves them there. -/
def writeMetrics (metrics : Telemetry.Metrics) (process : String) (path : Path) (disk : Disk) :
    Except Disk.Error Disk :=
  let draft := Path.ofText (path.text ++ "." ++ process)
  match disk.write draft ⟨.bytes (Text.Utf8.encodeString metrics.text), 0⟩ with
  | .error error => .error error
  | .ok written =>
      match written.move draft path with
      | .ok moved => .ok moved
      | .error error => .error error

/-- Writes the metrics; that they cannot be written is only logged. -/
def dumpMetrics (target : Text.RawText) : Run Unit := do
  let world ← get
  let path := Path.ofText target
  match writeMetrics world.metrics world.chance.process path world.disk with
  | .ok disk => set { world with disk }
  | .error .nullByte => throw (.disk .nullByte)
  | .error error =>
      Run.note ⟨.warning, logger, "Cannot write metrics to " ++ target ++ ": " ++ error.message⟩

/-- A value that an option must have got. -/
def given (value : Given α) (misfit : Misfit) : Run (Option α) :=
  match value with
  | .absent => return none
  | .void => throw (.misfit misfit)
  | .value a => return some a

/-- What is printed: text for people, or JSON, which must not hold surrogates. -/
def printed (json : Bool) (paths : List Path) (value : Json) (text : Text.RawText) :
    Run Text.RawText :=
  if json then
    if paths.any (fun path => path.text.hasSurrogate) then throw (.misfit .surrogate)
    else return prettyLine value
  else return text

/-- The command itself: the code and the text that it ends with. -/
def runCommand (arguments : Arguments) (settings : Settings) : Run (Nat × Text.RawText) := do
  let chance := (← get).chance
  match arguments.command with
  | .build root =>
      let report ← Service.build settings root none
      return (0, ← printed arguments.json [report.root, report.indexPath]
        (buildJson report chance.elapsedNumber) (buildText report chance.elapsedShort))
  | .search root query limit =>
      let limit ← given limit .voidLimit
      let some root := root | throw (.misfit .voidPath)
      let response ← Service.search settings root query limit
      return (0, ← printed arguments.json [] (searchJson response chance.elapsedNumber)
        (searchText response))
  | .audit root =>
      let report ← Service.audit settings root
      return (if report.needsRebuild then 3 else 0,
        ← printed arguments.json [report.root, report.indexPath]
          (auditJson report chance.elapsedNumber) (auditText report))

/-- How log records are shown. -/
structure LogStyle where
  json : Bool
  least : Nat
deriving DecidableEq, Repr

/-- The lines of the records since the last call, which takes them away. -/
def takeLines (style : LogStyle) : Run Text.RawText := do
  let world ← get
  set { world with records := [] }
  return .join (world.records.reverse.map (fun record =>
    Logging.renderAll style.json style.least
      ⟨world.chance.shownTime, world.chance.shownTrace, world.chance.shownSpan, record.root⟩
      [⟨record.note.logger, record.note.level.number, record.note.message⟩]))

/-- The command with its log, and the fault that it announces if it fails. Other faults pass. -/
def reportCommand (arguments : Arguments) (settings : Settings) (style : LogStyle) :
    Run Output := do
  startTracing (some version)
  let _ ← startExport settings.otlpEndpoint
  match ← ExceptT.lift (ExceptT.run (runCommand arguments settings)) with
  | .ok (code, stdout) => return ⟨code, stdout, ← takeLines style⟩
  | .error fault =>
      if fault.isAnnounced then
        Run.note ⟨.debug, logger, "Command " ++ arguments.command.name ++ " failed"⟩
        let lines ← takeLines style
        return ⟨1, "", lines ++ programName ++ ": " ++ fault.message ++ "\n"⟩
      else throw fault

/-- Runs a command with its settings, and writes the metrics in any case. -/
def runConfigured (arguments : Arguments) (settings : Settings) : Run Output := do
  let settings := override arguments settings
  let least ← Run.ofExcept
    ((Logging.threshold (arguments.logLevel.value?.getD settings.logLevel)).mapError .takenLevel)
  let style : LogStyle := ⟨arguments.jsonLogs || settings.logJson, least⟩
  let dump : Run Unit :=
    match settings.metricsFile with
    | some target => if target.isEmpty then pure () else dumpMetrics target
    | none => pure ()
  let output ← Run.finally_ (reportCommand arguments settings style) dump
  return { output with stderr := output.stderr ++ (← takeLines style) }

/-- What is said about the statements of the file of variables that cannot be read. -/
def unreadText (lines : List Nat) : String :=
  String.join (lines.map (fun line =>
    "python-dotenv could not parse statement starting at line " ++ toString line ++ "\n"))

/-- Runs a command once its arguments are known. -/
def runParsed (arguments : Arguments) : Run Output := do
  match ← ExceptT.lift (ExceptT.run (Service.configure [])) with
  | .ok settings => runConfigured arguments settings
  | .error (.invalidSettings problems) => return ⟨1, "", invalidSettings problems⟩
  | .error fault => throw fault

/-- Runs the program. -/
def run (arguments : List Text.RawText) : Run Output := do
  match parse arguments with
  | .error exit => return ⟨exit.code, exit.stdout, exit.stderr⟩
  | .ok parsed =>
      let unread := unreadText (Settings.unreadLines (← Service.variablesContent))
      let output ← runParsed parsed
      return { output with stderr := unread ++ output.stderr }

end TokenSearch.CommandLine
