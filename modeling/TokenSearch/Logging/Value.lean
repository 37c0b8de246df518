import TokenSearch.Decimal.Exact
import TokenSearch.Decimal.Layout
import TokenSearch.Path
import TokenSearch.Text.Quoted

namespace TokenSearch.Logging

/-! Values that are attached to log records, and their words. -/

/-- A set and a frozen set hold each member once, in the order in which they list them; a byte array
is what a byte string is, and can be changed. Any other object is known by the name of its type, its
words, and the form in which it is shown inside other values. -/
inductive Value where
  | null
  | flag (value : Bool)
  | integer (value : Int)
  | number (value : Float)
  | text (value : String)
  | list (items : List Value)
  | mapping (members : List (String × Value))
  | set (items : List Value)
  | frozenSet (items : List Value)
  | path (value : Path)
  | bytes (value : Bytes)
  | byteArray (value : Bytes)
  | decimal (value : Decimal.Exact)
  | other (kind words shown : String)
deriving Inhabited

namespace Value

mutual

/-- A value as it is shown inside other values. -/
def shown : Value → String
  | .null => "None"
  | .flag value => if value then "True" else "False"
  | .integer value => toString value
  | .number value => Decimal.plain.text value
  | .text value => Text.Quoted.text value
  | .list items => "[" ++ ", ".intercalate (shownItems items) ++ "]"
  | .mapping members => "\x7b" ++ ", ".intercalate (shownMembers members) ++ "\x7d"
  | .set [] => "set()"
  | .set items => "\x7b" ++ ", ".intercalate (shownItems items) ++ "\x7d"
  | .frozenSet [] => "frozenset()"
  | .frozenSet items => "frozenset(\x7b" ++ ", ".intercalate (shownItems items) ++ "\x7d)"
  | .path value => "PosixPath(" ++ Text.Quoted.text value.toString ++ ")"
  | .bytes value => Text.Quoted.bytes value
  | .byteArray value => "bytearray(" ++ Text.Quoted.byteArray value ++ ")"
  | .decimal value => "Decimal('" ++ value.text ++ "')"
  | .other _ _ shown => shown

def shownItems : List Value → List String
  | [] => []
  | item :: rest => shown item :: shownItems rest

def shownMembers : List (String × Value) → List String
  | [] => []
  | (key, value) :: rest =>
      (Text.Quoted.text key ++ ": " ++ shown value) :: shownMembers rest

end

/-- A value in words. Texts, paths and decimal numbers stand for themselves. -/
def words : Value → String
  | .text value => value
  | .path value => value.toString
  | .decimal value => value.text
  | .other _ words _ => words
  | value => value.shown

/-- The type of a value, as errors name it. -/
def typeName : Value → String
  | .null => "NoneType"
  | .flag _ => "bool"
  | .integer _ => "int"
  | .number _ => "float"
  | .text _ => "str"
  | .list _ => "list"
  | .mapping _ => "dict"
  | .set _ => "set"
  | .frozenSet _ => "frozenset"
  | .path _ => "PosixPath"
  | .bytes _ => "bytes"
  | .byteArray _ => "bytearray"
  | .decimal _ => "decimal.Decimal"
  | .other kind _ _ => kind

/-- Whether a value says anything: zeros and what is empty do not. -/
def isTelling : Value → Bool
  | .null => false
  | .flag value => value
  | .integer value => value ≠ 0
  | .number value => !(value == 0)
  | .text value => !value.isEmpty
  | .list items | .set items | .frozenSet items => !items.isEmpty
  | .mapping members => !members.isEmpty
  | .path _ => true
  | .bytes value | .byteArray value => !value.isEmpty
  | .decimal (.finite _ coefficient _) => coefficient ≠ 0
  | .decimal _ => true
  | .other _ _ _ => true

end Value

end TokenSearch.Logging
