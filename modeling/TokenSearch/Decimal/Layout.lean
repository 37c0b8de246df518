import TokenSearch.Decimal.Binary

namespace TokenSearch.Decimal

/-! Where the point and the exponent of a number stand. -/

/-- Numbers whose leading digit counts between `10 ^ least` and `10 ^ most` are written with a
point; all others with an exponent of at least `exponentWidth` digits and its sign. -/
structure Layout where
  least : Int
  most : Int
  exponentWidth : Nat
  infinite : String
  undefined : String
deriving Repr

def zeros (count : Nat) : String := String.ofList (List.replicate count '0')

def padded (width n : Nat) : String :=
  let text := toString n
  zeros (width - text.length) ++ text

/-- Drops the zeros at the end of a number. -/
def trimZeros (n : Scientific) : (fuel : Nat) → Scientific
  | 0 => n
  | fuel + 1 =>
      if n.digits ≠ 0 && n.digits % 10 = 0 then
        trimZeros ⟨n.digits / 10, n.exponent + 1⟩ fuel
      else n

/-- Digits with a point; there is at least one digit on either side of it. -/
def positional (n : Scientific) : String :=
  let digits := toString n.digits
  if 0 ≤ n.exponent then digits ++ zeros n.exponent.toNat ++ ".0"
  else
    let places := (-n.exponent).toNat
    if places < digits.length then
      (digits.take (digits.length - places)).toString ++ "." ++
        (digits.drop (digits.length - places)).toString
    else "0." ++ zeros (places - digits.length) ++ digits

/-- One digit before the point, and the exponent. -/
def scientific (layout : Layout) (n : Scientific) : String :=
  let digits := toString n.digits
  let leading := n.exponent + digits.length - 1
  let mantissa :=
    if digits.length = 1 then digits
    else (digits.take 1).toString ++ "." ++ (digits.drop 1).toString
  let sign := if leading < 0 then "-" else "+"
  mantissa ++ "e" ++ sign ++ padded layout.exponentWidth leading.natAbs

def Layout.text (layout : Layout) (x : Float) : String :=
  match Binary.ofFloat x with
  | .undefined => layout.undefined
  | .infinite negative => (if negative then "-" else "") ++ layout.infinite
  | .finite negative significand exponent =>
      let n := trimZeros (shortest significand exponent) 20
      let leading := n.exponent + (toString n.digits).length - 1
      let body :=
        if n.digits = 0 then "0.0"
        else if layout.least ≤ leading && leading ≤ layout.most then positional n
        else scientific layout n
      (if negative then "-" else "") ++ body

/-- A number in words: with a point from 0.0001 up to below 10^16. -/
def plain : Layout := ⟨-4, 15, 2, "inf", "nan"⟩

end TokenSearch.Decimal
