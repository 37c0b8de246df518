import TokenSearch.CommandLine.Grammar
import TokenSearch.Path

namespace TokenSearch.CommandLine

/-! The commands and their arguments. -/

def programName : String := "looker"

def version : String := "0.1.0"

inductive Command where
  | build (root : Path)
  | search (root : Option Path) (query : Text.RawText) (limit : Given Int)
  | audit (root : Path)
deriving Repr

def Command.name : Command → String
  | .build _ => "build"
  | .search _ _ _ => "search"
  | .audit _ => "audit"

/-- The root of a command, unless it was given the mark in its place. -/
def Command.root : Command → Option Path
  | .build root | .audit root => some root
  | .search root _ _ => root

structure Arguments where
  logLevel : Given String
  jsonLogs : Bool
  metricsFile : Given Path
  command : Command
  indexDir : Given Text.RawText
  json : Bool
deriving Repr

/-- How a run ends before it does any work. -/
structure Exit where
  code : Nat
  stdout : String
  stderr : Text.RawText
deriving DecidableEq, Repr

def helpChoice : Choice := ⟨.help, ["-h", "--help"], .help⟩

def commonChoices : List Choice :=
  [⟨.indexDir, ["--index-dir"], .value⟩, ⟨.json, ["--json"], .flag⟩]

def mainGrammar : Grammar where
  program := programName
  choices := [helpChoice, ⟨.version, ["--version"], .version⟩,
    ⟨.logLevel, ["--log-level"], .value⟩, ⟨.jsonLogs, ["--json-logs"], .flag⟩,
    ⟨.metricsFile, ["--metrics-file"], .value⟩]
  operand := .command "command"

def buildGrammar : Grammar where
  program := programName ++ " build"
  choices := helpChoice :: commonChoices
  operand := .optional "root"

def searchGrammar : Grammar where
  program := programName ++ " search"
  choices := [helpChoice, ⟨.root, ["--root"], .value⟩, ⟨.limit, ["-l", "--limit"], .value⟩] ++
    commonChoices
  operand := .required "query"

def auditGrammar : Grammar where
  program := programName ++ " audit"
  choices := helpChoice :: commonChoices
  operand := .optional "root"

def logLevels : List String := ["debug", "info", "warning", "error", "critical"]

def commands : List String := ["build", "search", "audit"]

def usage (error : UsageError) : Exit := ⟨2, "", error.message⟩

/-- A complaint about the value of an option or an operand. -/
def refuse (grammar : Grammar) (title words : String) : Exit :=
  usage ⟨grammar.program, "argument " ++ title ++ ": " ++ words⟩

def notAmong (value : Text.RawText) (allowed : List String) : String :=
  "invalid choice: " ++ Text.Quoted.raw value ++ " (choose from " ++
    ", ".intercalate (allowed.map Text.Quoted.text) ++ ")"

/-- A limit is an integer from one on. -/
def limitOf (text : Text.RawText) : Except String Int :=
  match Text.Integer.read text.toStringLossy with
  | .error _ => .error ("expected an integer, got " ++ Text.Quoted.raw text)
  | .ok n => if n < 1 then .error "must be >= 1" else .ok n

def helpExit (grammar : Grammar) : Exit :=
  ⟨0, "usage: " ++ grammar.program ++
    String.join (grammar.choices.map (fun choice => " [" ++ choice.title ++ "]")) ++ "\n", ""⟩

/-- What a command's own arguments say. -/
structure Details where
  operand : Option Text.RawText
  root : Given Path
  limit : Given Int
  indexDir : Given Text.RawText
  json : Bool
deriving Repr

def applyDetail (grammar : Grammar) (details : Details) : Event → Except Exit Details
  | .flag .help => .error (helpExit grammar)
  | .flag .json => .ok { details with json := true }
  | .value .indexDir text => .ok { details with indexDir := .value text }
  | .void .indexDir => .ok { details with indexDir := .void }
  | .value .root text => .ok { details with root := .value (.ofText text) }
  | .void .root => .ok { details with root := .void }
  | .value .limit text =>
      match limitOf text with
      | .ok limit => .ok { details with limit := .value limit }
      | .error words => .error (refuse grammar "-l/--limit" words)
  | .void .limit => .ok { details with limit := .void }
  | .operand text => .ok { details with operand := some text }
  | _ => .ok details

/-- The name of an operand that must be there and is not. -/
def missingOperand? (grammar : Grammar) (scan : Scan) : Option String :=
  if scan.filled then none
  else
    match grammar.operand with
    | .optional _ => none
    | .required name | .command name => some name

/-- After all events: a complaint of the scan, then a missing operand. -/
def finish (grammar : Grammar) (scan : Scan) : Except Exit Unit :=
  match scan.failure with
  | some error => .error (usage error)
  | none =>
      match missingOperand? grammar scan with
      | some name =>
          .error (usage ⟨grammar.program, "the following arguments are required: " ++ name⟩)
      | none => .ok ()

/-- The arguments of a command, and those that it does not know. -/
def parseDetails (grammar : Grammar) (arguments : List Text.RawText) :
    Except Exit (Details × List Text.RawText) := do
  let scan ← (grammar.read arguments).mapError usage
  let details ← scan.events.foldlM (applyDetail grammar) ⟨none, .absent, .absent, .absent, false⟩
  finish grammar scan
  return (details, scan.extras)

def currentDirectory : Path := .ofString "."

def rootOperand (details : Details) : Path :=
  (details.operand.map Path.ofText).getD currentDirectory

/-- The command of the given name with its arguments, and those that it does not know. -/
def parseCommand (name : Text.RawText) (arguments : List Text.RawText) :
    Except Exit (Command × Details × List Text.RawText) := do
  if name = Text.RawText.ofString "build" then
    let (details, extras) ← parseDetails buildGrammar arguments
    return (.build (rootOperand details), details, extras)
  else if name = Text.RawText.ofString "search" then
    let (details, extras) ← parseDetails searchGrammar arguments
    let root := match details.root with
      | .absent => some currentDirectory
      | .void => none
      | .value path => some path
    return (.search root (details.operand.getD ⟨[]⟩) details.limit, details, extras)
  else if name = Text.RawText.ofString "audit" then
    let (details, extras) ← parseDetails auditGrammar arguments
    return (.audit (rootOperand details), details, extras)
  else .error (refuse mainGrammar "command" (notAmong name commands))

/-- What the arguments before a command say, and the command itself once it was read. -/
structure MainState where
  logLevel : Given String
  jsonLogs : Bool
  metricsFile : Given Path
  command : Option (Command × Details × List Text.RawText)

def applyMain (state : MainState) : Event → Except Exit MainState
  | .flag .help => .error (helpExit mainGrammar)
  | .flag .version => .error ⟨0, programName ++ " " ++ version ++ "\n", ""⟩
  | .flag .jsonLogs => .ok { state with jsonLogs := true }
  | .value .logLevel text =>
      match logLevels.find? (fun level => text = Text.RawText.ofString level) with
      | some level => .ok { state with logLevel := .value level }
      | none => .error (refuse mainGrammar "--log-level" (notAmong text logLevels))
  | .void .logLevel => .ok { state with logLevel := .void }
  | .value .metricsFile text => .ok { state with metricsFile := .value (.ofText text) }
  | .void .metricsFile => .ok { state with metricsFile := .void }
  | .command name arguments => do
      return { state with command := some (← parseCommand name arguments) }
  | _ => .ok state

/-- Reads all arguments. Those that nobody knows are reported last. -/
def parse (arguments : List Text.RawText) : Except Exit Arguments := do
  let scan ← (mainGrammar.read arguments).mapError usage
  let state ← scan.events.foldlM applyMain ⟨.absent, false, .absent, none⟩
  finish mainGrammar scan
  match state.command with
  | none => .error (usage ⟨programName, "the following arguments are required: command"⟩)
  | some (command, details, extras) =>
      let unknown := scan.extras ++ extras
      if unknown.isEmpty then
        return {
          logLevel := state.logLevel
          jsonLogs := state.jsonLogs
          metricsFile := state.metricsFile
          command
          indexDir := details.indexDir
          json := details.json }
      else .error (usage ⟨programName, "unrecognized arguments: " ++
        Text.RawText.intercalate " " unknown⟩)

end TokenSearch.CommandLine
