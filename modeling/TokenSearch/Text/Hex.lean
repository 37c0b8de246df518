import TokenSearch.Text.Utf8

namespace TokenSearch.Text.Hex

/-! Hexadecimal digits, in lower case. -/

def digit (n : Nat) : Char :=
  if n < 10 then Char.ofNat ('0'.toNat + n) else Char.ofNat ('a'.toNat + (n - 10))

/-- The last `width` hexadecimal digits of `n`. -/
def fixed : (width n : Nat) → List Char
  | 0, _ => []
  | width + 1, n => fixed width (n / 16) ++ [digit (n % 16)]

def byte (b : UInt8) : List Char :=
  fixed 2 b.toNat

def bytes (bs : Bytes) : String :=
  String.ofList (bs.flatMap byte)

def value? (c : Char) : Option Nat :=
  if '0' ≤ c ∧ c ≤ '9' then some (c.toNat - '0'.toNat)
  else if 'a' ≤ c ∧ c ≤ 'f' then some (c.toNat - 'a'.toNat + 10)
  else if 'A' ≤ c ∧ c ≤ 'F' then some (c.toNat - 'A'.toNat + 10)
  else none

/-- Reads pairs of digits. -/
def read? : List Char → Option Bytes
  | [] => some []
  | high :: low :: rest => do
      let h ← value? high
      let l ← value? low
      let bs ← read? rest
      return UInt8.ofNat (h * 16 + l) :: bs
  | [_] => none

end TokenSearch.Text.Hex
