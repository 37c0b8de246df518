import TokenSearch.Data.Assoc
import TokenSearch.Fault
import TokenSearch.Text.RawText

namespace TokenSearch.Telemetry

/-! Spans of a trace, and the ids that tie log records to them. -/

/-- The ids of the work at hand, and the root that it is about. -/
structure RunContext where
  trace : String
  span : String
  root : Option Text.RawText
deriving DecidableEq, Repr, Inhabited

/-- The simple values of attributes. -/
inductive Simple where
  | text (value : Text.RawText)
  | integer (value : Int)
  | number (bits : UInt64)
  | flag (value : Bool)
deriving DecidableEq, Repr

/-- Which constructor a simple value has. -/
def Simple.kind : Simple → Nat
  | .text _ => 0
  | .integer _ => 1
  | .number _ => 2
  | .flag _ => 3

/-- An attribute is a simple value, or a list of simple values of one kind with gaps. -/
inductive Attribute where
  | simple (value : Simple)
  | list (values : List (Option Simple))
deriving DecidableEq, Repr

namespace Attribute

def text (value : Text.RawText) : Attribute := .simple (.text value)
def integer (value : Int) : Attribute := .simple (.integer value)

/-- A list is an attribute if the values in it are of one kind. -/
def ofList? (values : List (Option Simple)) : Option Attribute :=
  match values.filterMap id with
  | [] => some (.list values)
  | first :: rest =>
      if rest.all (fun other => other.kind = first.kind) then some (.list values) else none

end Attribute

abbrev Attributes := Data.Assoc String Attribute

/-- How many attributes a span keeps. -/
def attributeLimit : Nat := 128

/-- Sets an attribute, which is then the latest; the oldest one goes if there are too many. -/
def setAttribute (attributes : Attributes) (name : String) (value : Attribute) : Attributes :=
  if (Data.Assoc.get? attributes name).isSome then
    Data.Assoc.erase attributes name ++ [(name, value)]
  else if attributeLimit ≤ attributes.length then attributes.drop 1 ++ [(name, value)]
  else attributes ++ [(name, value)]

/-- A piece of work that is over. -/
structure Span where
  name : String
  attributes : Attributes
  fault : Option Fault
deriving Repr

/-- What span names and attribute names begin with. -/
def domain : String := "looker"

def qualify (name : String) : String := domain ++ "." ++ name

/-- What traces tell about the program itself. -/
def serviceAttributes (version : Option String) : List (String × String) :=
  ("service.name", domain) ::
    match version with
    | some text => if text.isEmpty then [] else [("service.version", text)]
    | none => []

end TokenSearch.Telemetry
