import TokenSearch.Json
import TokenSearch.Logging.Member

namespace TokenSearch.Logging

/-! Values as JSON. -/

/-- The integers that can be written: from -2^63 up to below 2^64. -/
def fitsNumber (n : Int) : Bool := -9223372036854775808 ≤ n && n < 18446744073709551616

/-- Containers can be nested up to this depth. -/
def depthLimit : Nat := 255

/-- What is inside of a container at the given depth. -/
def checkDepth (depth : Nat) : Except FormatError Unit :=
  if depthLimit ≤ depth then .error .nesting else .ok ()

/-- A text as JSON; one that holds a surrogate cannot be written. -/
def rawToJson (text : Text.RawText) : Except FormatError Json :=
  match text.toString? with
  | some text => .ok (.text text)
  | none => .error .surrogate

namespace Value

/-- What was made of the members of a set, in the order of their words. -/
def inOrder (items : List Value) (made : List β) : List β :=
  (((items.map words).zip made).mergeSort (fun a b => decide (a.1 ≤ b.1))).map Prod.snd

mutual

/-- A value as JSON, `depth` containers deep itself. An empty list is written at any depth; sets are
written as lists in the order of the words of their members. -/
def toJson (depth : Nat) : Value → Except FormatError Json
  | .null => .ok .null
  | .flag value => .ok (.flag value)
  | .integer value => if fitsNumber value then .ok (.integer value) else .error .integerRange
  | .number value => .ok (Json.number value)
  | .text value => .ok (.text value)
  | .list [] | .set [] | .frozenSet [] => .ok (.array [])
  | .list items => do
      checkDepth depth
      return .array (← (itemsToJson (depth + 1) items).mapM id)
  | .mapping members => do
      checkDepth depth
      return .object (← membersToJson (depth + 1) members)
  | .set items | .frozenSet items => do
      checkDepth depth
      return .array (← (inOrder items (itemsToJson (depth + 1) items)).mapM id)
  | .path value => rawToJson value.text
  | .bytes value | .byteArray value => .ok (.text (Text.Utf8.decodeLossy value))
  | .decimal value => .ok (.text value.text)
  | .other _ words _ => .ok (.text words)

def itemsToJson (depth : Nat) : List Value → List (Except FormatError Json)
  | [] => []
  | item :: rest => toJson depth item :: itemsToJson depth rest

def membersToJson (depth : Nat) : List (String × Value) → Except FormatError (List (String × Json))
  | [] => .ok []
  | (key, value) :: rest => do
      let first ← toJson depth value
      let others ← membersToJson depth rest
      return (key, first) :: others

end

end Value

end TokenSearch.Logging
