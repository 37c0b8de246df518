import TokenSearch.Decimal.Layout
import TokenSearch.Text.Quoted
import TokenSearch.Text.Real

namespace TokenSearch

/-! Values as tables keep them. A column prefers one kind of value and may still hold another. -/

inductive Cell where
  | null
  | integer (value : Int)
  /-- A number with a point, by its 64 bits. -/
  | real (bits : UInt64)
  | text (value : String)
  | blob (value : Bytes)
deriving DecidableEq, Hashable, Repr, Inhabited

namespace Cell

def ofFloat (x : Float) : Cell := .real x.toBits

def ofInteger? : Option Int → Cell
  | some n => .integer n
  | none => .null

def text? : Cell → Option String
  | .text value => some value
  | _ => none

def integer? : Cell → Option Int
  | .integer value => some value
  | _ => none

/-- A value as messages quote it. -/
def shown : Cell → String
  | .null => "None"
  | .integer value => toString value
  | .real bits => Decimal.plain.text (Float.ofBits bits)
  | .text value => Text.Quoted.text value
  | .blob value => Text.Quoted.bytes value

/-- A value inside a sentence: a text stands for itself. -/
def words : Cell → String
  | .text value => value
  | cell => cell.shown

/-- The name of a value's kind, as messages give it. -/
def kindName : Cell → String
  | .null => "NoneType"
  | .integer _ => "int"
  | .real _ => "float"
  | .text _ => "str"
  | .blob _ => "bytes"

/-- Where kinds of values stand in an order: nothing, numbers, texts, bytes. -/
def rank : Cell → Nat
  | .null => 0
  | .integer _ | .real _ => 1
  | .text _ => 2
  | .blob _ => 3

/-- Compares an integer with a number with a point. All integers lie between the infinite ones. -/
def compareReal (n : Int) (bits : UInt64) : Ordering :=
  match Decimal.Binary.ofFloat (Float.ofBits bits) with
  | .undefined => .gt
  | .infinite negative => if negative then .gt else .lt
  | .finite negative significand exponent =>
      let size : Int := if negative then -(significand : Int) else significand
      compare (n * Decimal.twoTo (-exponent).toNat) (size * Decimal.twoTo exponent.toNat)

def compareReals (a b : UInt64) : Ordering :=
  if Float.ofBits a < Float.ofBits b then .lt
  else if Float.ofBits b < Float.ofBits a then .gt
  else .eq

/-- The order of values: by kind, and numbers by their size. -/
def order (a b : Cell) : Ordering :=
  match a, b with
  | .integer m, .integer n => compare m n
  | .integer m, .real b => compareReal m b
  | .real a, .integer n => (compareReal n a).swap
  | .real a, .real b => compareReals a b
  | .text s, .text t => compare s t
  | .blob x, .blob y => compare x y
  | a, b => compare a.rank b.rank

def precedes (a b : Cell) : Bool := a.order b != .gt

/-- Whether two values are the same in a search through a table; nothing is the same as nothing. -/
def agrees (a b : Cell) : Bool :=
  a != .null && b != .null && a.order b == .eq

/-- The least integer that is not below a number. Beyond the integers that a column can hold, it is
the outermost of these. -/
def ceiling : Cell → Int
  | .integer value => value
  | .real bits =>
      match Decimal.Binary.ofFloat (Float.ofBits bits) with
      | .finite negative significand exponent =>
          let size : Int := if negative then -(significand : Int) else significand
          let unit : Int := Decimal.twoTo (-exponent).toNat
          let least := (size * Decimal.twoTo exponent.toNat + unit - 1) / unit
          max (-9223372036854775808) (min 9223372036854775807 least)
      | _ => 0
  | _ => 0

/-- The sum of two numbers. -/
def add? : Cell → Cell → Option Cell
  | .integer m, .integer n => some (.integer (m + n))
  | .integer m, .real b => some (ofFloat (Float.ofInt m + Float.ofBits b))
  | .real a, .integer n => some (ofFloat (Float.ofBits a + Float.ofInt n))
  | .real a, .real b => some (ofFloat (Float.ofBits a + Float.ofBits b))
  | _, _ => none

end Cell

end TokenSearch
