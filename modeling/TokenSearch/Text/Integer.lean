import TokenSearch.Text.Ranges
import TokenSearch.Text.Quoted

namespace TokenSearch.Text.Integer

/-! Integers as people write them: blanks around, a sign, and digits that single underscores may
separate. The digits may be those of any script, and their count is limited. -/

/-- The code points of the zeros; each is followed by the digits one to nine. -/
def zeros : Array Nat :=
  #[
    0x30, 0x660, 0x6f0, 0x7c0, 0x966, 0x9e6, 0xa66, 0xae6, 0xb66, 0xbe6,
    0xc66, 0xce6, 0xd66, 0xde6, 0xe50, 0xed0, 0xf20, 0x1040, 0x1090, 0x17e0,
    0x1810, 0x1946, 0x19d0, 0x1a80, 0x1a90, 0x1b50, 0x1bb0, 0x1c40, 0x1c50, 0xa620,
    0xa8d0, 0xa900, 0xa9d0, 0xa9f0, 0xaa50, 0xabf0, 0xff10, 0x104a0, 0x10d30, 0x11066,
    0x110f0, 0x11136, 0x111d0, 0x112f0, 0x11450, 0x114d0, 0x11650, 0x116c0, 0x11730, 0x118e0,
    0x11950, 0x11c50, 0x11d50, 0x11da0, 0x16a60, 0x16ac0, 0x16b50, 0x1d7ce, 0x1d7d8, 0x1d7e2,
    0x1d7ec, 0x1d7f6, 0x1e140, 0x1e2f0, 0x1e950, 0x1fbf0]

def digit? (c : Char) : Option Nat :=
  if '0' ≤ c ∧ c ≤ '9' then some (c.toNat - '0'.toNat)
  else if c.toNat < 0x80 then none
  else (zeros.find? (fun first => first ≤ c.toNat && c.toNat < first + 10)).map (c.toNat - ·)

/-- A digit of any script as one of ASCII; other characters stay. -/
def plainDigit (c : Char) : Char :=
  match digit? c with
  | some d => Char.ofNat ('0'.toNat + d)
  | none => c

/-- Why a text is no integer. -/
inductive Refusal where
  | malformed
  | tooLong (digits : Nat)
deriving DecidableEq, Repr

/-- More digits than this are not read. -/
def digitLimit : Nat := 4300

/-- Digits that start a text: their number, their count, and what follows them. -/
structure Run where
  value : Nat
  count : Nat
  rest : List Char

/-- Reads on behind a digit. An underscore must have a digit on both sides. -/
def run? (value count : Nat) : List Char → Option Run
  | [] => some ⟨value, count, []⟩
  | ['_'] => none
  | '_' :: c :: rest =>
      match digit? c with
      | some d => run? (value * 10 + d) (count + 1) rest
      | none => none
  | c :: rest =>
      match digit? c with
      | some d => run? (value * 10 + d) (count + 1) rest
      | none => some ⟨value, count, c :: rest⟩

/-- The count of digits is looked at before what follows them. -/
def Run.number (run : Run) : Except Refusal Nat :=
  if digitLimit < run.count then .error (.tooLong run.count)
  else if run.rest.isEmpty then .ok run.value
  else .error .malformed

def unsigned : List Char → Except Refusal Nat
  | [] => .error .malformed
  | c :: rest =>
      match (digit? c).bind (fun d => run? d 1 rest) with
      | some run => run.number
      | none => .error .malformed

def signed : List Char → Except Refusal Int
  | '-' :: rest => (unsigned rest).map (fun n => -Int.ofNat n)
  | '+' :: rest => (unsigned rest).map Int.ofNat
  | cs => (unsigned cs).map Int.ofNat

/-- The white space that may stand around a number: the separators of ASCII do not count. -/
def isMargin (c : Char) : Bool :=
  if c.toNat < 0x80 then isAsciiBlank c else isBlank c

def read (text : String) : Except Refusal Int :=
  signed (trimWith isMargin text.toList)

/-- Reads bytes as characters of ASCII; others are no part of a number. -/
def readBytes (bytes : Bytes) : Except Refusal Int :=
  signed (trimWith isMargin (bytes.map (fun byte =>
    if byte < 0x80 then Char.ofNat byte.toNat else Utf8.replacement)))

/-- The words for a refusal of what is shown as `shown`; of what is no number they show the
beginning. -/
def Refusal.message (shown : String) : Refusal → String
  | .malformed => "invalid literal for int() with base 10: " ++
      String.ofList (shown.toList.take 200)
  | .tooLong digits => "Exceeds the limit (" ++ toString digitLimit ++
      " digits) for integer string conversion: value has " ++ toString digits ++
      " digits; use sys.set_int_max_str_digits() to increase the limit"

end TokenSearch.Text.Integer
