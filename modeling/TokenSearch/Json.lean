import TokenSearch.Decimal.Layout
import TokenSearch.Text.Hex

namespace TokenSearch

/-! JSON values and their two text forms: on one line, and with two blanks for each level. -/

inductive Json where
  | null
  | flag (value : Bool)
  | integer (value : Int)
  /-- A number as it is to be written. -/
  | literal (text : String)
  | text (value : String)
  | array (items : List Json)
  | object (members : List (String × Json))
deriving Inhabited

namespace Json

/-- Quotes, backslashes and controls are marked; all other characters stand for themselves. -/
def escape (c : Char) : List Char :=
  if c = '"' || c = '\\' then ['\\', c]
  else if c = '\n' then ['\\', 'n']
  else if c = '\r' then ['\\', 'r']
  else if c = '\t' then ['\\', 't']
  else if c = '\x08' then ['\\', 'b']
  else if c = '\x0c' then ['\\', 'f']
  else if c.toNat < 0x20 then '\\' :: 'u' :: Text.Hex.fixed 4 c.toNat
  else [c]

def quote (value : String) : String :=
  String.ofList ('"' :: value.toList.flatMap escape ++ ['"'])

/-- Numbers with a point from 0.00001 up to below 10^16. -/
def layout : Decimal.Layout := ⟨-5, 15, 1, "null", "null"⟩

/-- A number that is not finite has no form and is null. -/
def number (x : Float) : Json :=
  match Decimal.Binary.ofFloat x with
  | .finite _ _ _ => .literal (layout.text x)
  | _ => .null

mutual

def compact : Json → String
  | .null => "null"
  | .flag value => if value then "true" else "false"
  | .integer value => toString value
  | .literal written => written
  | .text value => quote value
  | .array items => "[" ++ ",".intercalate (compactItems items) ++ "]"
  | .object members => "\x7b" ++ ",".intercalate (compactMembers members) ++ "\x7d"

def compactItems : List Json → List String
  | [] => []
  | item :: rest => compact item :: compactItems rest

def compactMembers : List (String × Json) → List String
  | [] => []
  | (key, value) :: rest => (quote key ++ ":" ++ compact value) :: compactMembers rest

end

def indent (depth : Nat) : String := String.ofList (List.replicate (2 * depth) ' ')

/-- Items one a line between two marks; without items the marks stand together. -/
def block (first last : String) (depth : Nat) (items : List String) : String :=
  if items.isEmpty then first ++ last
  else
    let lines := items.map (fun item => indent (depth + 1) ++ item)
    first ++ "\n" ++ ",\n".intercalate lines ++ "\n" ++ indent depth ++ last

mutual

/-- The text on several lines; the value stands `depth` levels deep. -/
def pretty (depth : Nat) : Json → String
  | .null => "null"
  | .flag value => if value then "true" else "false"
  | .integer value => toString value
  | .literal written => written
  | .text value => quote value
  | .array items => block "[" "]" depth (prettyItems (depth + 1) items)
  | .object members => block "\x7b" "\x7d" depth (prettyMembers (depth + 1) members)

def prettyItems (depth : Nat) : List Json → List String
  | [] => []
  | item :: rest => pretty depth item :: prettyItems depth rest

def prettyMembers (depth : Nat) : List (String × Json) → List String
  | [] => []
  | (key, value) :: rest => (quote key ++ ": " ++ pretty depth value) :: prettyMembers depth rest

end

end Json

end TokenSearch
