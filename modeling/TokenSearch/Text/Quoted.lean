import TokenSearch.Text.Hex
import TokenSearch.Text.Printable
import TokenSearch.Text.RawText

namespace TokenSearch.Text.Quoted

/-! Text and bytes shown inside quotes, as messages show them. A text takes single quotes unless
it holds one and no double quote. -/

def quoteFor (text : String) : Char :=
  if text.contains '\'' && !text.contains '"' then '"' else '\''

/-- A character by its code point. -/
def mark (point : Nat) : List Char :=
  if point < 0x100 then '\\' :: 'x' :: Hex.fixed 2 point
  else if point < 0x10000 then '\\' :: 'u' :: Hex.fixed 4 point
  else '\\' :: 'U' :: Hex.fixed 8 point

/-- How one character stands inside the quote `quote`. -/
def escape (quote c : Char) : List Char :=
  if c = quote ∨ c = '\\' then ['\\', c]
  else if c = '\n' then ['\\', 'n']
  else if c = '\r' then ['\\', 'r']
  else if c = '\t' then ['\\', 't']
  else if isPrintable c.toNat then [c]
  else mark c.toNat

def text (s : String) : String :=
  let quote := quoteFor s
  String.ofList (quote :: s.toList.flatMap (escape quote) ++ [quote])

/-- A text in quotes; a surrogate is marked by its number. -/
def raw (s : RawText) : String :=
  let quote :=
    if s.points.contains 0x27 && !s.points.contains 0x22 then '"' else '\''
  String.ofList (quote :: s.points.flatMap (fun point =>
    if RawText.isSurrogate point then mark point.toNat
    else escape quote (Char.ofNat point.toNat)) ++ [quote])

/-- The text with every character outside of ASCII marked. -/
def asciiOnly (s : String) : String :=
  String.ofList (s.toList.flatMap (fun c => if c.toNat < 0x80 then [c] else mark c.toNat))

/-- How one byte stands inside a quoted byte string. -/
def escapeByte (quote : Char) (b : UInt8) : List Char :=
  let c := Char.ofNat b.toNat
  if c = quote ∨ c = '\\' then ['\\', c]
  else if c = '\n' then ['\\', 'n']
  else if c = '\r' then ['\\', 'r']
  else if c = '\t' then ['\\', 't']
  else if 0x20 ≤ b.toNat ∧ b.toNat < 0x7F then [c]
  else '\\' :: 'x' :: Hex.byte b

def quoteForBytes (bs : Bytes) : Char :=
  if bs.contains 0x27 && !bs.contains 0x22 then '"' else '\''

/-- A byte string starts with the letter b. -/
def bytes (bs : Bytes) : String :=
  let quote := quoteForBytes bs
  String.ofList ('b' :: quote :: bs.flatMap (escapeByte quote) ++ [quote])

/-- Inside a byte array a single quote is marked inside either quote. -/
def byteArray (bs : Bytes) : String :=
  let quote := quoteForBytes bs
  String.ofList ('b' :: quote :: bs.flatMap (escapeByte '\'') ++ [quote])

end TokenSearch.Text.Quoted
