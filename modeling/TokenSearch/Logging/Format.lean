import TokenSearch.Data.Assoc
import TokenSearch.Logging.Line
import TokenSearch.Logging.Percent
import TokenSearch.Logging.Timestamp
import TokenSearch.Logging.Written

namespace TokenSearch.Logging

/-! Log records with attached values as JSON lines. The parts of a record can be replaced by any
values, so each is looked at only when the line needs it. -/

/-- An error that a record reports: its kind and its words. -/
structure Reported where
  kind : String
  words : String
deriving DecidableEq, Repr

namespace Reported

/-- Kinds that are known under another name. -/
def title (reported : Reported) : String :=
  if reported.kind ∈ ["IOError", "EnvironmentError"] then "OSError" else reported.kind

/-- An error about a key shows the key in quotes, and one about syntax says that it has no words. -/
def detail (reported : Reported) : String :=
  if reported.kind = "KeyError" then Text.Quoted.text reported.words
  else if reported.words.isEmpty &&
      reported.kind ∈ ["SyntaxError", "IndentationError", "TabError"] then
    "<no detail available>"
  else reported.words

def text (reported : Reported) : String :=
  if reported.detail.isEmpty then reported.title else reported.title ++ ": " ++ reported.detail

end Reported

/-- What a record tells about an error: an error, or some value in its place. -/
inductive Failure where
  | reported (error : Reported)
  | value (value : Value)

structure Record where
  logger : Value
  level : Value
  message : Value
  arguments : Arguments
  created : Value
  failure : Failure
  /-- A value in place of what fills the arguments in. -/
  formatter : Option Value
  /-- The attached values, in the order in which they were attached. -/
  extras : Data.Assoc String Value

/-- The names of a record's own parts; a value under such a name changes the record and is not
attached to it. -/
def reservedNames : List String :=
  ["name", "msg", "args", "levelname", "levelno", "pathname", "filename", "module", "exc_info",
    "exc_text", "stack_info", "lineno", "funcName", "created", "msecs", "relativeCreated", "thread",
    "threadName", "processName", "process", "message", "asctime"]

def isReserved (name : String) : Bool :=
  name ∈ reservedNames || name.startsWith "_"

/-- Puts a value into a record: under a reserved name it replaces that part, else it is attached. -/
def Record.set (record : Record) (name : String) (value : Value) : Record :=
  if name = "msg" then { record with message := value }
  else if name = "name" then { record with logger := value }
  else if name = "levelname" then { record with level := value }
  else if name = "created" then { record with created := value }
  else if name = "args" then { record with arguments := .single value }
  else if name = "exc_info" then { record with failure := .value value }
  else if name = "getMessage" then { record with formatter := some value }
  else if isReserved name then record
  else { record with extras := Data.Assoc.put record.extras name value }

/-- The most characters of an attached text that are shown. -/
def fieldLimit : Nat := 500

/-- A long text is cut; what is inside of other values is not. -/
def clip : Value → Value
  | .text value =>
      if fieldLimit < value.length then .text ((value.take fieldLimit).toString ++ "...")
      else .text value
  | value => value

/-- A level in small letters. Of bytes only the letters of ASCII change. -/
def lowered : Value → Except FormatError Value
  | .text value => .ok (.text (Text.lowercase value))
  | .bytes value => .ok (.bytes (value.map small))
  | .byteArray value => .ok (.byteArray (value.map small))
  | other => .error (.noAttribute other.typeName "lower")
where
  small (byte : UInt8) : UInt8 := if 65 ≤ byte && byte ≤ 90 then byte + 32 else byte

/-- The name of the attribute by which the trace of an error goes on. -/
def traceAttribute : String := "tb_frame"

/-- The name of the attribute that an error has and other values have not. -/
def errorAttribute : String := "__suppress_context__"

/-- The text of a value in place of an error. Its third item should be a trace and its second one an
error; where both are missing, that is what is told. -/
def valueText : Value → Except FormatError String
  | .text value =>
      if value.length < 3 then .error (.noItem "string ")
      else .error (.noAttribute "str" traceAttribute)
  | .bytes value =>
      if value.length < 3 then .error (.noItem "") else .error (.noAttribute "int" traceAttribute)
  | .byteArray value =>
      if value.length < 3 then .error (.noItem "bytearray ")
      else .error (.noAttribute "int" traceAttribute)
  | .list (_ :: .null :: .null :: _) => .ok "NoneType: None"
  | .list (_ :: other :: .null :: _) => .error (.noAttribute other.typeName errorAttribute)
  | .list (_ :: _ :: other :: _) => .error (.noAttribute other.typeName traceAttribute)
  | .list _ => .error (.noItem "list ")
  | .mapping _ => .error (.noNumberedKey 2)
  | other => .error (.notSubscriptable other.typeName)

def Failure.text? : Failure → Except FormatError (Option String)
  | .reported error => .ok (some error.text)
  | .value held => if held.isTelling then (valueText held).map some else .ok none

/-- The message with its arguments. -/
def Record.body (record : Record) : Except FormatError Text.RawText :=
  match record.formatter with
  | some value => .error (.notCallable value.typeName)
  | none => formatMessage record.message.words record.arguments

/-- The ids and the root of the work that a record belongs to. -/
structure Origin where
  trace : Value
  span : Value
  root : Value

/-- A text as a member of a line; one that holds a surrogate cannot be written. -/
def textMember (text : Text.RawText) : Except FormatError Value :=
  match text.toString? with
  | some text => .ok (.text text)
  | none => .error .surrogate

/-- What a record tells without the values attached to it. -/
def Record.own (record : Record) (origin : Origin) :
    Except FormatError (Data.Assoc String (Except FormatError Value)) := do
  let time ← (← Instant.ofValue record.created).written
  let level ← lowered record.level
  let message ← record.body
  let failure ← record.failure.text?
  let root := match origin.root with
    | .null => none
    | root => some (.ok root)
  return members (.ok (.text time)) (.ok level) (.ok record.logger) (textMember message)
    (.ok origin.trace) (.ok origin.span) root ++
    (failure.map (fun text => ("exc", .ok (.text text)))).toList

/-- What a record tells. An attached value takes the place of a part of the same name. -/
def Record.told (record : Record) (own : Data.Assoc String (Except FormatError Value)) :
    Data.Assoc String (Except FormatError Value) :=
  record.extras.foldl (fun all pair => Data.Assoc.put all pair.1 (.ok (clip pair.2))) own

/-- A member of a line as JSON. -/
def memberToJson (member : String × Except FormatError Value) :
    Except FormatError (String × Json) := do
  return (member.1, ← (← member.2).toJson 2)

/-- The members of the line of a record. -/
def Record.written (record : Record) (origin : Origin) :
    Except FormatError (List (String × Json)) := do
  (record.told (← record.own origin)).mapM memberToJson

/-- The line of a record. -/
def Record.line (record : Record) (origin : Origin) : Except FormatError String := do
  return (Json.object (← record.written origin)).compact

end TokenSearch.Logging
