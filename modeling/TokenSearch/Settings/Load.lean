import TokenSearch.Settings.Dotenv
import TokenSearch.Settings.Read

namespace TokenSearch.Settings

/-! Where settings come from: values that are given outright, the environment, and a file of
variables in the working directory, in this order of precedence. -/

def variableStart : String := "looker_"

/-- The field that a variable sets; the case of its name does not count. -/
def fieldOf? (name : String) : Option Field :=
  let small := Text.lowercase name
  if small.startsWith variableStart then
    Field.ofName? (small.drop variableStart.length).toString
  else none

/-- The values that variables give; of two variables for one field, the later one counts. -/
def ofVariables (bindings : Data.Assoc String String) : Input :=
  Data.Assoc.ofList (bindings.filterMap (fun (name, value) =>
    (fieldOf? name).map (fun field => (field, Value.text value))))

/-- The fields in their own order. -/
def sorted (input : Input) : Input :=
  Field.all.filterMap (fun field => (Data.Assoc.get? input field).map (fun value => (field, value)))

/-- Values of several sources; a later source takes precedence, and keeps the place of a field that
an earlier one has set. -/
def merge (sources : List Input) : Input :=
  sources.foldl (fun merged source =>
    source.foldl (fun merged (field, value) => Data.Assoc.put merged field value) merged) []

/-- Variables under names in small letters. Of two with one name the later one counts, also if it
has no value; those without a value are left out. -/
def inSmallLetters (bindings : Data.Assoc String (Option String)) : Data.Assoc String String :=
  (Data.Assoc.ofList (bindings.map (fun (name, value) => (Text.lowercase name, value)))).filterMap
    (fun (name, value) => value.map (fun value => (name, value)))

/-- Variables of a file that set no field and yet say something. -/
def strangers (bindings : Data.Assoc String String) : Data.Assoc String String :=
  bindings.filter (fun (name, value) =>
    !value.isEmpty && (fieldOf? name).isNone && (Field.ofName? name).isNone)

/-- Texts by the names of their fields. -/
def named (input : Input) : Data.Assoc String String :=
  input.filterMap (fun (field, value) =>
    match value with
    | .text text => some (field.name, text)
    | _ => none)

/-- The text of a file of variables. -/
def fileText : Option Bytes → Except Fault String
  | none => .ok ""
  | some content => (Text.Utf8.decodeString content).mapError .undecodable

/-- The settings of a run. -/
def load (arguments : Input) (environment : Data.Assoc String String) (dotenv : Option Bytes) :
    Except Fault Settings := do
  let bindings := inSmallLetters (Dotenv.read environment (← fileText dotenv))
  let file := sorted (ofVariables bindings)
  let outside := merge [sorted (ofVariables environment), arguments]
  let listed := (named outside).foldl (fun all (name, text) => Data.Assoc.put all name text)
    (named file ++ strangers bindings)
  (ofInput (merge [file, outside]) listed).mapError .invalidSettings

/-- The lines of a file of variables at which statements begin that cannot be read. -/
def unreadLines (dotenv : Option Bytes) : List Nat :=
  match fileText dotenv with
  | .ok text => Dotenv.unreadLines text
  | .error _ => []

end TokenSearch.Settings
