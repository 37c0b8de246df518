import TokenSearch.Text.Utf8

namespace TokenSearch.Text

/-! Text from outside. It is a sequence of code points of which some may be surrogates, so it need
not be a `String`. -/

structure RawText where
  points : List UInt32
deriving DecidableEq, Repr, Inhabited

namespace RawText

def isSurrogate (point : UInt32) : Bool :=
  0xD800 ≤ point && point ≤ 0xDFFF

def ofString (text : String) : RawText :=
  ⟨text.toList.map Char.val⟩

instance : Coe String RawText := ⟨ofString⟩

def append (left right : RawText) : RawText :=
  ⟨left.points ++ right.points⟩

instance : Append RawText := ⟨append⟩

def isEmpty (text : RawText) : Bool := text.points.isEmpty

/-- The texts one after the other, with `separator` between them. -/
def intercalate (separator : RawText) (texts : List RawText) : RawText :=
  ⟨(texts.map points).intersperse separator.points |>.flatten⟩

/-- The texts one after the other. -/
def join (texts : List RawText) : RawText :=
  ⟨(texts.map points).flatten⟩

/-- By code points. -/
def precedes (left right : RawText) : Bool :=
  decide (left.points ≤ right.points)

/-- The characters before the first surrogate. -/
def sound (text : RawText) : List Char :=
  (text.points.takeWhile (fun p => !isSurrogate p)).map (fun p => Char.ofNat p.toNat)

def hasSurrogate (text : RawText) : Bool :=
  text.points.any isSurrogate

def hasNull (text : RawText) : Bool :=
  text.points.any (· = 0)

/-- How many bytes a point takes in the name of a file. The surrogates from U+DC80 up to U+DCFF
stand for single bytes that are no text. -/
def width (point : UInt32) : Nat :=
  if point < 0x80 then 1
  else if point < 0x800 then 2
  else if 0xDC80 ≤ point && point ≤ 0xDCFF then 1
  else if point < 0x10000 then 3
  else 4

/-- How many bytes a text takes in the name of a file. -/
def byteCount (text : RawText) : Nat :=
  text.points.foldl (fun total point => total + width point) 0

/-- The text as a string, if it holds no surrogate. -/
def toString? (text : RawText) : Option String :=
  if text.hasSurrogate then none
  else some (String.ofList (text.points.map (fun p => Char.ofNat p.toNat)))

/-- The character of a point, with U+FFFD for a surrogate. -/
def charOf (point : UInt32) : Char :=
  if isSurrogate point then Utf8.replacement else Char.ofNat point.toNat

/-- The text as a string, with U+FFFD for each surrogate. -/
def toStringLossy (text : RawText) : String :=
  String.ofList (text.points.map charOf)

end RawText

end TokenSearch.Text
