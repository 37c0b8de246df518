import TokenSearch.Decimal.Binary
import TokenSearch.Text.Real

namespace TokenSearch.Decimal

/-! Decimal numbers that keep the digits with which they are written. -/

inductive Exact where
  /-- The number `coefficient * 10 ^ exponent`, with a sign of its own. -/
  | finite (negative : Bool) (coefficient : Nat) (exponent : Int)
  | infinite (negative : Bool)
  /-- Not a number. A signal refuses to be used at all; a payload of zero is not written. -/
  | undefined (negative signal : Bool) (payload : Nat)
deriving DecidableEq, Repr, Inhabited

namespace Exact

/-- Why a text is no decimal number. -/
inductive Refusal where
  | malformed
  | outOfRange
deriving DecidableEq, Repr

/-- The greatest power of ten that a first digit may count. -/
def greatestPower : Int := 999999999999999999

/-- The least power of ten that a last digit may count. -/
def leastPower : Int := -1999999999999999997

def digits (coefficient : Nat) : List Char := Nat.toDigits 10 coefficient

/-- A number whose digits lie within the range of powers; the digits of zero count as one. -/
def bounded (negative : Bool) (coefficient : Nat) (exponent : Int) : Except Refusal Exact :=
  if exponent < leastPower || greatestPower < exponent + (digits coefficient).length - 1 then
    .error .outOfRange
  else .ok (.finite negative coefficient exponent)

def readFinite (negative : Bool) (cs : List Char) : Except Refusal Exact :=
  let whole := cs.takeWhile isDigit
  let (part, rest) := match cs.drop whole.length with
    | '.' :: more => (more.takeWhile isDigit, more.dropWhile isDigit)
    | more => ([], more)
  if whole.isEmpty && part.isEmpty then .error .malformed
  else
    match exponent? rest with
    | some exponent =>
        bounded negative (digitsValue (whole ++ part)) (exponent - part.length)
    | none => .error .malformed

/-- The payload of a number that is none. -/
def readUndefined (negative signal : Bool) (payload : List Char) : Except Refusal Exact :=
  if payload.all isDigit then .ok (.undefined negative signal (digitsValue payload))
  else .error .malformed

def readUnsigned (negative : Bool) (cs : List Char) : Except Refusal Exact :=
  let small := cs.map Char.toLower
  if small = "inf".toList || small = "infinity".toList then .ok (.infinite negative)
  else if "nan".toList.isPrefixOf small then readUndefined negative false (cs.drop 3)
  else if "snan".toList.isPrefixOf small then readUndefined negative true (cs.drop 4)
  else readFinite negative cs

/-- Reads a decimal number. Blanks around it and all underscores are passed over, and the digits may
be those of any script. -/
def read (text : String) : Except Refusal Exact :=
  let cs := ((Text.trimWith Text.isBlank text.toList).filter (· ≠ '_')).map Text.Integer.plainDigit
  match cs with
  | '-' :: rest => readUnsigned true rest
  | '+' :: rest => readUnsigned false rest
  | _ => readUnsigned false cs

/-- A number with a point unless its last digit counts more than one or it is very small. -/
def finiteText (cs : List Char) (exponent : Int) : String :=
  let leading := exponent + cs.length - 1
  if exponent ≤ 0 && -6 ≤ leading then
    if exponent = 0 then String.ofList cs
    else
      let places := (-exponent).toNat
      if places < cs.length then
        let front := cs.length - places
        String.ofList (cs.take front) ++ "." ++ String.ofList (cs.drop front)
      else
        "0." ++ String.ofList (List.replicate (places - cs.length) '0') ++ String.ofList cs
  else
    let mantissa := match cs with
      | d :: e :: more => String.ofList (d :: '.' :: e :: more)
      | _ => String.ofList cs
    mantissa ++ (if leading < 0 then "E-" else "E+") ++ toString leading.natAbs

def sign (negative : Bool) : String := if negative then "-" else ""

def text : Exact → String
  | .finite negative coefficient exponent =>
      sign negative ++ finiteText (digits coefficient) exponent
  | .infinite negative => sign negative ++ "Infinity"
  | .undefined negative signal payload =>
      sign negative ++ (if signal then "sNaN" else "NaN") ++
        (if payload = 0 then "" else toString payload)

/-- Drops the zeros at the end of a coefficient, at most `fuel` of them. -/
def trim (coefficient : Nat) (exponent : Int) : (fuel : Nat) → Nat × Int
  | 0 => (coefficient, exponent)
  | fuel + 1 =>
      if coefficient % 10 = 0 then trim (coefficient / 10) (exponent + 1) fuel
      else (coefficient, exponent)

/-- The one form of a finite number whose coefficient does not end in zero. -/
def reduced : Exact → Exact
  | .finite negative coefficient exponent =>
      if coefficient = 0 then .finite false 0 0
      else
        let (least, power) := trim coefficient exponent (digits coefficient).length
        .finite negative least power
  | other => other

def ofInt (n : Int) : Exact := .finite (n < 0) n.natAbs 0

/-- A binary number as a decimal one; each has a finite expansion. -/
def ofBinary : Binary → Exact
  | .finite negative significand exponent =>
      .finite negative
        (significand * twoTo exponent.toNat * Nat.pow 5 (-exponent).toNat) (min exponent 0)
  | .infinite negative => .infinite negative
  | .undefined => .undefined false false 0

/-- The nearest binary number; a signal has none. -/
def toFloat? : Exact → Option Float
  | .finite negative coefficient exponent =>
      let size := nearest coefficient exponent
      some (if negative then -size else size)
  | .infinite negative => some (if negative then -1.0 / 0.0 else 1.0 / 0.0)
  | .undefined _ signal _ => if signal then none else some (0.0 / 0.0)

end Exact

end TokenSearch.Decimal
