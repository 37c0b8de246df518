import TokenSearch.Decimal.Layout

namespace TokenSearch.Decimal

/-! Numbers with a chosen count of digits. A half goes to the even digit. -/

/-- With a point, with an exponent, or with whichever of the two suits the size of the number. -/
inductive Style where
  | fixed
  | exponential
  | general
deriving DecidableEq, Repr

/-- The number `significand * 2 ^ exponent`, which is positive, with `count` digits. -/
def rounded (count significand : Nat) (exponent : Int) : Scientific :=
  let numerator := significand * twoTo exponent.toNat
  let denominator := twoTo (-exponent).toNat
  let place := magnitude numerator denominator - count
  let digits := roundDiv (numerator * tenTo (-place).toNat) (denominator * tenTo place.toNat)
  if digits = tenTo count then ⟨digits / 10, place + 1⟩ else ⟨digits, place⟩

/-- The digits before and behind the point of a number with `places` places. -/
def fixedParts (places significand : Nat) (exponent : Int) : String × String :=
  let scaled := roundDiv (significand * tenTo places * twoTo exponent.toNat)
    (twoTo (-exponent).toNat)
  let digits := padded (places + 1) scaled
  ((digits.take (digits.length - places)).toString, (digits.drop (digits.length - places)).toString)

/-- The digits before and behind the point of a number with `places` places behind its first digit,
and the exponent. -/
def exponentialParts (places significand : Nat) (exponent : Int) : String × String × Int :=
  if significand = 0 then ("0", zeros places, 0)
  else
    let n := rounded (places + 1) significand exponent
    let digits := toString n.digits
    ((digits.take 1).toString, (digits.drop 1).toString, n.exponent + places)

def withoutZeros (digits : String) : String :=
  String.ofList (digits.toList.reverse.dropWhile (· = '0')).reverse

/-- A point stands before places, and also before none if `pointed` asks for it. -/
def pointed (always : Bool) (places : String) : String :=
  if places.isEmpty && !always then "" else "." ++ places

/-- The mark of an exponent, which has a sign and at least two digits. -/
def exponentMark (exponent : Int) : String :=
  (if exponent < 0 then "e-" else "e+") ++ padded 2 exponent.natAbs

/-- The size of a finite number in the given style. The general style counts all digits, takes a
point from 0.0001 on while the digits reach, and drops zeros at the end unless all is asked for. -/
def Style.finite (style : Style) (precision : Nat) (all : Bool) (significand : Nat)
    (exponent : Int) : String :=
  match style with
  | .fixed =>
      let (front, back) := fixedParts precision significand exponent
      front ++ pointed all back
  | .exponential =>
      let (front, back, power) := exponentialParts precision significand exponent
      front ++ pointed all back ++ exponentMark power
  | .general =>
      let count := max precision 1
      let (front, back, power) := exponentialParts (count - 1) significand exponent
      let trim (places : String) : String := if all then places else withoutZeros places
      if -4 ≤ power && power < count then
        let (front, back) := fixedParts ((count : Int) - 1 - power).toNat significand exponent
        front ++ pointed all (trim back)
      else front ++ pointed all (trim back) ++ exponentMark power

/-- The size of a number in the given style, and whether it is below zero. -/
def Style.parts (style : Style) (precision : Nat) (all : Bool) (x : Float) : Bool × String :=
  match Binary.ofFloat x with
  | .undefined => (false, "nan")
  | .infinite negative => (negative, "inf")
  | .finite negative significand exponent =>
      (negative, style.finite precision all significand exponent)

end TokenSearch.Decimal
