import TokenSearch.Text.Integer

namespace TokenSearch.Decimal

/-! Reading decimal numbers: a sign, digits with a point, an exponent, or a word for a number that
is not finite. People write them with blanks around, digits of any script, and single underscores
between digits. -/

def isDigit (c : Char) : Bool := '0' ≤ c && c ≤ '9'

def digitsValue (cs : List Char) : Nat :=
  cs.foldl (fun n c => n * 10 + (c.toNat - '0'.toNat)) 0

/-- The nearest number to `mantissa * 10 ^ exponent`. Far beyond the range of numbers the exponent
decides alone. -/
def nearest (mantissa : Nat) (exponent : Int) : Float :=
  let size := (Nat.toDigits 10 mantissa).length
  if mantissa = 0 then 0
  else if 400 < exponent + size then 1.0 / 0.0
  else if exponent + size < -400 then 0
  else if 0 ≤ exponent then Float.ofScientific mantissa false exponent.toNat
  else Float.ofScientific mantissa true (-exponent).toNat

def exponent? : List Char → Option Int
  | [] => some 0
  | e :: rest =>
      if e = 'e' || e = 'E' then
        let (negative, digits) := match rest with
          | '-' :: more => (true, more)
          | '+' :: more => (false, more)
          | more => (false, more)
        if digits.isEmpty || !digits.all isDigit then none
        else
          let n : Int := digitsValue digits
          some (if negative then -n else n)
      else none

def unsigned? (cs : List Char) : Option Float :=
  let whole := cs.takeWhile isDigit
  let (part, rest) := match cs.drop whole.length with
    | '.' :: more => (more.takeWhile isDigit, more.dropWhile isDigit)
    | more => ([], more)
  if whole.isEmpty && part.isEmpty then none
  else do
    let exponent ← exponent? rest
    return nearest (digitsValue (whole ++ part)) (exponent - part.length)

def word? (cs : List Char) : Option Float :=
  let text := String.ofList (cs.map Char.toLower)
  if text = "inf" || text = "infinity" then some (1.0 / 0.0)
  else if text = "nan" then some (0.0 / 0.0)
  else none

def magnitude? (cs : List Char) : Option Float :=
  match word? cs with
  | some x => some x
  | none => unsigned? cs

def number? : List Char → Option Float
  | '-' :: rest => (magnitude? rest).map (fun x => -x)
  | '+' :: rest => magnitude? rest
  | cs => magnitude? cs

end TokenSearch.Decimal

namespace TokenSearch.Text.Real

/-- Drops underscores, each of which must stand between two digits. -/
def joined? (behindDigit : Bool) : List Char → Option (List Char)
  | [] => some []
  | ['_'] => none
  | '_' :: c :: rest =>
      if behindDigit && Decimal.isDigit c then (joined? true rest).map (c :: ·) else none
  | c :: rest => (joined? (Decimal.isDigit c) rest).map (c :: ·)

def read? (text : String) : Option Float :=
  (joined? false ((trimWith Integer.isMargin text.toList).map Integer.plainDigit)).bind
    Decimal.number?

end TokenSearch.Text.Real
