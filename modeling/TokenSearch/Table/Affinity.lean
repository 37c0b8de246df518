import TokenSearch.Decimal.Rounded
import TokenSearch.Table.Cell

namespace TokenSearch

/-! What becomes of a value in a column. A column of texts turns numbers into texts, a column of
integers turns texts that are numbers into numbers, and both leave all else as it is. -/

inductive Affinity where
  | text
  | integer
  | none
deriving DecidableEq, Repr

namespace Cell

/-- The integers that a column can hold: from -2^63 up to below 2^63. -/
def fitsColumn (n : Int) : Bool :=
  -9223372036854775808 ≤ n && n < 9223372036854775808

/-- Blanks around a number. -/
def isSpace (c : Char) : Bool :=
  c = ' ' || ('\t' ≤ c && c ≤ '\r')

/-- The integer that a number with a point is equal to. The outermost integers are not reached. -/
def whole? (x : Float) : Option Int :=
  match Decimal.Binary.ofFloat x with
  | .finite negative significand exponent =>
      let scaled := significand * Decimal.twoTo exponent.toNat
      let unit := Decimal.twoTo (-exponent).toNat
      let n : Int := if negative then -(scaled / unit : Nat) else (scaled / unit : Nat)
      if scaled % unit = 0 && -9223372036854775808 < n && n < 9223372036854775807 then some n
      else Option.none
  | _ => Option.none

/-- A number with a point, or the integer that it is equal to. -/
def ofNumber (x : Float) : Cell :=
  match whole? x with
  | some n => .integer n
  | Option.none => ofFloat x

/-- The number that a text is, blanks around it left out: a sign, digits with a point among them,
and an exponent. -/
def ofNumeral? (text : String) : Option Cell :=
  let cs := ((text.toList.dropWhile isSpace).reverse.dropWhile isSpace).reverse
  let (negative, body) := match cs with
    | '-' :: rest => (true, rest)
    | '+' :: rest => (false, rest)
    | rest => (false, rest)
  if !body.isEmpty && body.all Decimal.isDigit then
    let size : Int := Decimal.digitsValue body
    let n := if negative then -size else size
    if fitsColumn n then some (.integer n)
    else some (ofFloat (let x := Decimal.nearest size.toNat 0; if negative then -x else x))
  else (Decimal.unsigned? body).map (fun x => ofNumber (if negative then -x else x))

/-- A number with a point in words, with up to fifteen digits. -/
def realText (x : Float) : String :=
  match Decimal.Binary.ofFloat x with
  | .undefined => ""
  | .infinite negative => if negative then "-Inf" else "Inf"
  | .finite negative significand exponent =>
      let n := Decimal.trimZeros (Decimal.rounded 15 significand exponent) 20
      let leading := n.exponent + (toString n.digits).length - 1
      let body :=
        if significand = 0 then "0.0"
        else if -4 ≤ leading && leading ≤ 14 then Decimal.positional n
        else
          let digits := toString n.digits
          let places := (digits.drop 1).toString
          (digits.take 1).toString ++ "." ++ (if places.isEmpty then "0" else places) ++
            Decimal.exponentMark leading
      (if negative && significand ≠ 0 then "-" else "") ++ body

end Cell

/-- What a column keeps of a value. -/
def Affinity.keep (affinity : Affinity) (cell : Cell) : Cell :=
  match affinity, cell with
  | .text, .integer n => .text (toString n)
  | .text, .real bits => .text (Cell.realText (Float.ofBits bits))
  | .integer, .text value => (Cell.ofNumeral? value).getD cell
  | .integer, .real bits => Cell.ofNumber (Float.ofBits bits)
  | _, _ => cell

end TokenSearch
