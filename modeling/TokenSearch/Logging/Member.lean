import Std.Data.HashSet
import TokenSearch.Logging.Error
import TokenSearch.Logging.Slots
import TokenSearch.Logging.Value

namespace TokenSearch.Logging.Value

/-! Members of sets. Numbers of all types are compared by their values. -/

/-- The number that a value stands for, in its one reduced form. -/
def amount? : Value → Option Decimal.Exact
  | .flag value => some (Decimal.Exact.ofInt (if value then 1 else 0)).reduced
  | .integer value => some (Decimal.Exact.ofInt value).reduced
  | .number value =>
      match Decimal.Binary.ofFloat value with
      | .undefined => none
      | binary => some (Decimal.Exact.ofBinary binary).reduced
  | .decimal (.undefined _ _ _) => none
  | .decimal value => some value.reduced
  | _ => none

def sorted (texts : List String) : List String :=
  texts.mergeSort (fun a b => decide (a ≤ b))

mutual

/-- What tells members apart: values with one key are the same member. What is not a number has no
key, since it differs from itself. -/
def key? : Value → Option String
  | .null => some "null"
  | .text value => some ("text " ++ Text.Quoted.text value)
  | .path value => some ("path " ++ Text.Quoted.text value.toString)
  | .bytes value => some ("bytes " ++ Text.Quoted.bytes value)
  | .frozenSet items =>
      (keys? items).map (fun keys => "set [" ++ ", ".intercalate (sorted keys) ++ "]")
  | value => value.amount?.map (fun amount => "number " ++ amount.text)

def keys? : List Value → Option (List String)
  | [] => some []
  | item :: rest => do
      let first ← key? item
      let others ← keys? rest
      return first :: others

end

/-- Whether a value can be a member: those that can be changed cannot. -/
def checkMember : Value → Except FormatError Unit
  | .list _ => .error (.unhashable "list")
  | .mapping _ => .error (.unhashable "dict")
  | .set _ => .error (.unhashable "set")
  | .byteArray _ => .error (.unhashable "bytearray")
  | .decimal (.undefined _ true _) => .error .unhashableSignal
  | _ => .ok ()

/-- Each member once, the first of those that are the same; `seen` are the keys before. -/
def distinctFrom (seen : Std.HashSet String) : List Value → List Value
  | [] => []
  | item :: rest =>
      match item.key? with
      | some key =>
          if seen.contains key then distinctFrom seen rest
          else item :: distinctFrom (seen.insert key) rest
      | none => item :: distinctFrom seen rest

/-- Values in the order of their words. -/
def byWords (items : List Value) : List Value :=
  items.mergeSort (fun a b => decide (a.words ≤ b.words))

mutual

/-- The mark that chooses a member's slot. Only numbers and sets of numbers have one. -/
def mark? : Value → Option Nat
  | .frozenSet items => (marks? items).map Slots.joined
  | value => value.amount?.bind Slots.mark?

def marks? : List Value → Option (List Nat)
  | [] => some []
  | item :: rest => do
      let first ← mark? item
      let others ← marks? rest
      return first :: others

end

/-- Members in the order in which a set lists them: by their slots, or by their words if they have
none, since then no order is promised. -/
def listed (items : List Value) : List Value :=
  match marks? items with
  | some marks => Slots.order (marks.zip items)
  | none => byWords items

/-- The members of a set of the given values. -/
def membersOf (items : List Value) : Except FormatError (List Value) := do
  items.forM checkMember
  return listed (distinctFrom ∅ items)

end TokenSearch.Logging.Value
