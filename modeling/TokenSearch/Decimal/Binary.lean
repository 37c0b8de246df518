namespace TokenSearch.Decimal

/-! Binary floating-point numbers as exact numbers, and the fewest decimal digits that read back as
such a number. -/

/-- Powers of two. -/
def twoTo (exponent : Nat) : Nat := Nat.pow 2 exponent

/-- Powers of ten. -/
def tenTo (exponent : Nat) : Nat := Nat.pow 10 exponent

/-- A finite number is `significand * 2 ^ exponent`, with a sign of its own. -/
inductive Binary where
  | finite (negative : Bool) (significand : Nat) (exponent : Int)
  | infinite (negative : Bool)
  | undefined
deriving DecidableEq, Repr

def Binary.ofFloat (x : Float) : Binary :=
  let bits : Nat := x.toBits.toNat
  let negative := bits / twoTo 63 = 1
  let biased : Nat := bits / twoTo 52 % 2048
  let fraction : Nat := bits % twoTo 52
  if biased = 2047 then
    if fraction = 0 then .infinite negative else .undefined
  else if biased = 0 then .finite negative fraction (-1074)
  else .finite negative (twoTo 52 + fraction) ((biased : Int) - 1075)

/-- The quotient to the nearest integer; a half goes to the even neighbour. -/
def roundDiv (numerator denominator : Nat) : Nat :=
  let quotient := numerator / denominator
  let rest := 2 * (numerator % denominator)
  if rest < denominator then quotient
  else if denominator < rest then quotient + 1
  else if quotient % 2 = 0 then quotient
  else quotient + 1

/-- `digits * 10 ^ exponent`. -/
structure Scientific where
  digits : Nat
  exponent : Int
deriving DecidableEq, Repr

def digitCount (n : Nat) : Nat := (Nat.toDigits 10 n).length

/-- How many digits stand before the point of `numerator / denominator`, which is positive; zeros
behind the point count as fewer than none. -/
def magnitude (numerator denominator : Nat) : Int :=
  if denominator ≤ numerator then digitCount (numerator / denominator)
  else 1 - (digitCount ((denominator - 1) / numerator) : Int)

/-- A positive number between the reals that round to it, all over one denominator. -/
structure Interval where
  low : Nat
  value : Nat
  high : Nat
  denominator : Nat
  /-- Whether the ends themselves round to the number. -/
  closed : Bool
deriving Repr

def Interval.ofBinary (significand : Nat) (exponent : Int) : Interval :=
  let scale := twoTo (exponent - 2).toNat
  let below := if significand = twoTo 52 && -1074 < exponent then 1 else 2
  { low := (4 * significand - below) * scale
    value := 4 * significand * scale
    high := (4 * significand + 2) * scale
    denominator := twoTo (2 - exponent).toNat
    closed := significand % 2 = 0 }

/-- Whether `digits * 10 ^ exponent` lies in the interval. -/
def Interval.contains (i : Interval) (digits : Nat) (exponent : Int) : Bool :=
  let point := digits * tenTo exponent.toNat * i.denominator
  let scale := tenTo (-exponent).toNat
  if i.closed then i.low * scale ≤ point && point ≤ i.high * scale
  else i.low * scale < point && point < i.high * scale

/-- Tries `count` digits, then more; `fuel` bounds how many more. -/
def Interval.search (i : Interval) (magnitude : Int) (count : Nat) : (fuel : Nat) → Scientific
  | 0 => ⟨0, 0⟩
  | fuel + 1 =>
      let exponent := magnitude - count
      let numerator := i.value * tenTo (-exponent).toNat
      let denominator := i.denominator * tenTo exponent.toNat
      let lower := numerator / denominator
      let nearest := roundDiv numerator denominator
      let other := if nearest = lower then lower + 1 else lower
      if i.contains nearest exponent then ⟨nearest, exponent⟩
      else if i.contains other exponent then ⟨other, exponent⟩
      else i.search magnitude (count + 1) fuel

/-- Seventeen digits always read back. -/
def shortest (significand : Nat) (exponent : Int) : Scientific :=
  if significand = 0 then ⟨0, 0⟩
  else
    let i := Interval.ofBinary significand exponent
    i.search (magnitude i.value i.denominator) 1 17

end TokenSearch.Decimal
