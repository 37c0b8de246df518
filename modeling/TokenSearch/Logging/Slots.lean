import TokenSearch.Decimal.Exact

namespace TokenSearch.Logging.Slots

/-! The order in which a set lists numbers, and sets of numbers. Each has a mark, and a set keeps
its members in a row of slots, of which the mark chooses one; members are listed in the order of
their slots. -/

/-- The prime number 2^61 - 1, modulo which marks are computed. -/
def prime : Nat := 2305843009213693951

/-- The power of a number modulo the prime; `fuel` bounds the binary digits of the exponent. -/
def power (base exponent : Nat) : (fuel : Nat) → Nat
  | 0 => 1
  | fuel + 1 =>
      if exponent = 0 then 1
      else
        let half := power (base * base % prime) (exponent / 2) fuel
        if exponent % 2 = 1 then half * base % prime else half

/-- The number whose product with ten is one modulo the prime. -/
def tenth : Nat := power 10 (prime - 2) 64

/-- The mark of a number as a word of 64 bits. A negative mark counts from the end, and minus one is
passed over. -/
def word (negative : Bool) (mark : Nat) : Nat :=
  if negative then
    let size := if mark = 1 then 2 else mark
    if size = 0 then 0 else Decimal.twoTo 64 - size
  else mark

/-- The mark of a number; what is not a number has none. -/
def mark? : Decimal.Exact → Option Nat
  | .finite negative coefficient exponent =>
      let scale := if exponent < 0 then power tenth exponent.natAbs 64
        else power 10 exponent.natAbs 64
      some (word negative (coefficient % prime * scale % prime))
  | .infinite negative => some (word negative 314159)
  | .undefined _ _ _ => none

/-- One word mixed so that neighbouring words come to lie far apart. -/
def stirred (mark : Nat) : Nat :=
  (mark ^^^ 89869747 ^^^ (mark * 65536 % Decimal.twoTo 64)) * 3644798167 % Decimal.twoTo 64

/-- The mark of a set of marked members; their order does not count. -/
def joined (marks : List Nat) : Nat :=
  let mixed := marks.foldl (fun kept mark => kept ^^^ stirred mark)
    ((marks.length + 1) * 1927868237 % Decimal.twoTo 64)
  let folded := mixed ^^^ (mixed / Decimal.twoTo 11) ^^^ (mixed / Decimal.twoTo 25)
  let mark := (folded * 69069 + 907133923) % Decimal.twoTo 64
  if mark = Decimal.twoTo 64 - 1 then 590923713 else mark

/-- A row of slots, each empty or with a member and its mark. -/
abbrev Row (α : Type) := Array (Option (Nat × α))

/-- How many neighbours of a slot are tried before another one is chosen. -/
def neighbours : Nat := 9

/-- The first empty slot among `count` slots from `place` on. -/
def emptyFrom? (row : Row α) (place : Nat) : (count : Nat) → Option Nat
  | 0 => none
  | count + 1 =>
      match row[place]? with
      | some none => some place
      | _ => emptyFrom? row (place + 1) count

/-- The empty slot for a mark. Slots are tried in turn; `rest` is what is left of the mark, and once
it is used up all slots come in turn, so the length of the row and of the mark bound `fuel`. -/
def emptySlot? (row : Row α) (place rest : Nat) : (fuel : Nat) → Option Nat
  | 0 => none
  | fuel + 1 =>
      let count := if place + neighbours < row.size then neighbours + 1 else 1
      match emptyFrom? row place count with
      | some found => some found
      | none =>
          let rest := rest / 32
          emptySlot? row ((place * 5 + 1 + rest) % row.size) rest fuel

def put (row : Row α) (member : Nat × α) : Row α :=
  match emptySlot? row (member.1 % row.size) member.1 (row.size + 64) with
  | some place => row.set! place (some member)
  | none => row

/-- The members of a row from left to right. -/
def members (row : Row α) : List (Nat × α) := row.toList.filterMap id

/-- The least size above `least` that doubling reaches from eight on. -/
def sizeAbove (least size : Nat) : (fuel : Nat) → Nat
  | 0 => size
  | fuel + 1 => if size ≤ least then sizeAbove least (size * 2) fuel else size

/-- How many slots a row of `count` members asks for when it grows. -/
def wanted (count : Nat) : Nat := if 50000 < count then count * 2 else count * 4

/-- A row of `count` members that is three fifths full is replaced by one with more slots than it
asks for. -/
def grown (row : Row α) (count : Nat) : Row α :=
  if count * 5 < (row.size - 1) * 3 then row
  else (members row).foldl put (Array.replicate (sizeAbove (wanted count) 8 64) none)

/-- Puts members into a row that has `count` of them. -/
def fill (row : Row α) (count : Nat) : List (Nat × α) → Row α
  | [] => row
  | member :: rest => fill (grown (put row member) (count + 1)) (count + 1) rest

/-- Members with their marks in the order in which a set lists them. -/
def order (marked : List (Nat × α)) : List α :=
  (members (fill (Array.replicate 8 none) 0 marked)).map Prod.snd

end TokenSearch.Logging.Slots
