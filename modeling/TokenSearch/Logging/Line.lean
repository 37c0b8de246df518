import TokenSearch.Json
import TokenSearch.Logging.Threshold
import TokenSearch.Text.Lowercase

namespace TokenSearch.Logging

/-! Log records as lines. -/

/-- What a line tells beside the record: the time, and the ids and the root of the work at hand. -/
structure Context where
  time : String
  trace : String
  span : String
  root : Option Text.RawText
deriving DecidableEq, Repr

/-- The level, who speaks, and the message. -/
def plainLine (level logger : String) (message : Text.RawText) : Text.RawText :=
  level ++ " " ++ logger ++ ": " ++ message

/-- The members of a record, in their order. -/
def members (time level logger message trace span : α) (root : Option α) : List (String × α) :=
  [("ts", time), ("level", level), ("logger", logger), ("msg", message), ("trace_id", trace),
    ("span_id", span)] ++ (root.map (fun root => ("root", root))).toList

def jsonLine (context : Context) (level logger : String) (message : Text.RawText) : String :=
  (Json.object (members (.text context.time) (.text (Text.lowercase level)) (.text logger)
    (.text message.toStringLossy) (.text context.trace) (.text context.span)
    (context.root.map (fun root => .text root.toStringLossy)))).compact

/-- A record on a line of its own. -/
def render (json : Bool) (context : Context) (level logger : String) (message : Text.RawText) :
    Text.RawText :=
  let line : Text.RawText :=
    if json then jsonLine context level logger message else plainLine level logger message
  line ++ "\n"

/-- A record as it is emitted: who speaks, at which level, and what. -/
structure Emitted where
  logger : String
  level : Int
  message : Text.RawText
deriving DecidableEq, Repr

/-- The name of a speaker; one without a name is the root of all. -/
def Emitted.speaker (record : Emitted) : String :=
  if record.logger.isEmpty then "root" else record.logger

/-- The lines of those records that reach the threshold. -/
def renderAll (json : Bool) (least : Nat) (context : Context) (records : List Emitted) :
    Text.RawText :=
  .join ((records.filter (fun record => isShown least record.level)).map (fun record =>
    render json context (levelName record.level) record.speaker record.message))

end TokenSearch.Logging
