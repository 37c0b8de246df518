namespace TokenSearch.Text.Ranges

/-! Membership in a table of closed ranges that is sorted in ascending order. The smallest such table
is that of white space, which is taken off both ends of a text. -/

/-- Binary search in the part of the table between `low` (included) and `high` (excluded). -/
def search (table : Array (Nat × Nat)) (point low high : Nat) : Bool :=
  if low < high then
    let middle := (low + high) / 2
    match table[middle]? with
    | none => false
    | some (first, last) =>
        if point < first then search table point low middle
        else if last < point then search table point (middle + 1) high
        else true
  else false
termination_by high - low
decreasing_by
  all_goals omega

def contains (table : Array (Nat × Nat)) (point : Nat) : Bool :=
  search table point 0 table.size

end TokenSearch.Text.Ranges

namespace TokenSearch.Text

def blankRanges : Array (Nat × Nat) :=
  #[(0x9, 0xd), (0x1c, 0x20), (0x85, 0x85), (0xa0, 0xa0), (0x1680, 0x1680), (0x2000, 0x200a),
    (0x2028, 0x2029), (0x202f, 0x202f), (0x205f, 0x205f), (0x3000, 0x3000)]

def isBlank (c : Char) : Bool :=
  Ranges.contains blankRanges c.toNat

/-- The six blanks of ASCII. -/
def isAsciiBlank (c : Char) : Bool :=
  c = ' ' || (0x9 ≤ c.toNat && c.toNat ≤ 0xD)

def trimWith (blank : Char → Bool) (cs : List Char) : List Char :=
  ((cs.dropWhile blank).reverse.dropWhile blank).reverse

def trim (text : String) : String :=
  String.ofList (trimWith isBlank text.toList)

end TokenSearch.Text
