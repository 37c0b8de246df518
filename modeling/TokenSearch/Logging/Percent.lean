import TokenSearch.Decimal.Rounded
import TokenSearch.Logging.Error
import TokenSearch.Logging.Value
import TokenSearch.Text.RawText

namespace TokenSearch.Logging

/-! Messages with places for arguments: a percent sign, flags, a width, a precision and the letter
of a conversion. -/

/-- What stands between the percent sign and the letter. -/
structure Spec where
  left : Bool
  plus : Bool
  blank : Bool
  zero : Bool
  alternate : Bool
  width : Nat
  precision : Option Nat
deriving Repr

def Spec.none : Spec := ⟨false, false, false, false, false, 0, Option.none⟩

def blanks (count : Nat) : String := String.ofList (List.replicate count ' ')

/-- Fills a text up to the width, with zeros behind the sign if asked for. -/
def Spec.fill (spec : Spec) (numeric : Bool) (sign body : String) : String :=
  let missing := spec.width - (sign.length + body.length)
  if spec.left then sign ++ body ++ blanks missing
  else if spec.zero && numeric then sign ++ Decimal.zeros missing ++ body
  else blanks missing ++ sign ++ body

def Spec.sign (spec : Spec) (negative : Bool) : String :=
  if negative then "-" else if spec.plus then "+" else if spec.blank then " " else ""

def wholeNumber? : Value → Option Int
  | .integer n => some n
  | .flag b => some (if b then 1 else 0)
  | _ => Option.none

/-- The integer part of a decimal number. One that has too many digits to be written has none. -/
def decimalPart : Decimal.Exact → Except FormatError Int
  | .finite negative coefficient exponent =>
      if coefficient ≠ 0 && (Text.Integer.digitLimit : Int) < exponent then .error .tooManyDigits
      else
        let n : Int := (coefficient * Decimal.tenTo exponent.toNat /
          Decimal.tenTo (min (-exponent).toNat (Decimal.Exact.digits coefficient).length) : Nat)
        .ok (if negative then -n else n)
  | .infinite _ => .error .infiniteDecimal
  | .undefined _ _ _ => .error .undefinedDecimal

/-- The integer part of a number. -/
def integerPart (letter : Char) (value : Value) : Except FormatError Int :=
  match value with
  | .number x =>
      match Decimal.Binary.ofFloat x with
      | .finite negative significand exponent =>
          let n : Int :=
            (significand * Decimal.twoTo exponent.toNat / Decimal.twoTo (-exponent).toNat : Nat)
          .ok (if negative then -n else n)
      | .infinite _ => .error .infiniteInteger
      | .undefined => .error .undefinedInteger
  | .decimal value => decimalPart value
  | other =>
      match wholeNumber? other with
      | some n => .ok n
      | Option.none => .error (.notNumber letter other.typeName)

/-- The digits of an integer; there may not be too many of them. -/
def integerDigits (n : Int) : Except FormatError String :=
  let digits := toString n.natAbs
  if Text.Integer.digitLimit < digits.length then .error .tooManyDigits else .ok digits

/-- A value as a floating-point number. -/
def realNumber (value : Value) : Except FormatError Float :=
  match value with
  | .number x => .ok x
  | .decimal value =>
      match value.toFloat? with
      | some x => .ok x
      | Option.none => .error .signal
  | other =>
      match wholeNumber? other with
      | some n =>
          let x := Float.ofInt n
          if x.isInf then .error .floatRange else .ok x
      | Option.none => .error (.notReal other.typeName)

/-- The most digits that can be asked for. -/
def Spec.digitLimit : Nat := 2147483644

/-- Digits with zeros in front, as many as the precision asks for. -/
def Spec.digits (spec : Spec) (text : String) : Except FormatError String :=
  match spec.precision with
  | some least =>
      if digitLimit < least then .error .integerPrecision
      else .ok (Decimal.zeros (least - text.length) ++ text)
  | Option.none => .ok text

/-- The style in which a letter asks for a floating-point number. -/
def styleOf? (letter : Char) : Option Decimal.Style :=
  if letter = 'f' || letter = 'F' then some .fixed
  else if letter = 'e' || letter = 'E' then some .exponential
  else if letter = 'g' || letter = 'G' then some .general
  else Option.none

/-- A capital letter asks for capital letters. -/
def inCaseOf (letter : Char) (text : String) : String :=
  if letter.isUpper then text.toUpper else text

def convertText (spec : Spec) (text : String) : String :=
  spec.fill false "" (match spec.precision with
    | some most => (text.take most).toString
    | Option.none => text)

/-- A single code point, filled up to the width. -/
def Spec.single (spec : Spec) (point : UInt32) : Text.RawText :=
  let missing := Text.RawText.ofString (blanks (spec.width - 1))
  if spec.left then .append ⟨[point]⟩ missing else .append missing ⟨[point]⟩

/-- A number stands for a code point, which may be a surrogate. -/
def convertCharacter (spec : Spec) (value : Value) : Except FormatError Text.RawText :=
  match value with
  | .text text =>
      match text.toList with
      | [c] => .ok (spec.single c.val)
      | _ => .error .notCharacter
  | other =>
      match wholeNumber? other with
      | some n =>
          if 0 ≤ n && n < 0x110000 then .ok (spec.single (UInt32.ofNat n.toNat))
          else .error .characterRange
      | Option.none => .error .notCharacter

/-- An integer to the base sixteen or eight. -/
def convertWord (spec : Spec) (letter : Char) (value : Value) : Except FormatError String :=
  match wholeNumber? value with
  | some n => do
      let text := String.ofList (Nat.toDigits (if letter = 'o' then 8 else 16) n.natAbs)
      let mark := if spec.alternate then "0" ++ String.ofList [letter] else ""
      return spec.fill true (spec.sign (n < 0) ++ mark) (inCaseOf letter (← spec.digits text))
  | Option.none => .error (.notNumber letter value.typeName)

/-- One argument in the form that a letter asks for; the letter stands at `place`. -/
def convert (spec : Spec) (letter : Char) (place : Nat) (value : Value) :
    Except FormatError Text.RawText :=
  let plain (text : String) : Except FormatError Text.RawText := .ok (.ofString text)
  if letter = 's' then plain (convertText spec value.words)
  else if letter = 'r' then plain (convertText spec value.shown)
  else if letter = 'a' then plain (convertText spec (Text.Quoted.asciiOnly value.shown))
  else if letter = 'd' || letter = 'i' || letter = 'u' then do
    let n ← integerPart letter value
    plain (spec.fill true (spec.sign (n < 0)) (← spec.digits (← integerDigits n)))
  else if letter = 'x' || letter = 'X' || letter = 'o' then do
    plain (← convertWord spec letter value)
  else if letter = 'c' then convertCharacter spec value
  else
    match styleOf? letter with
    | some style => do
        let x ← realNumber value
        let (negative, text) := style.parts (spec.precision.getD 6) spec.alternate x
        plain (spec.fill true (spec.sign negative) (inCaseOf letter text))
    | Option.none => .error (.unknownLetter letter place)

/-- A width from here on is more than memory holds. -/
def memoryLimit : Nat := 1099511627776

/-- One argument in the form that a letter asks for, if there is room for it. -/
def convertWithin (spec : Spec) (letter : Char) (place : Nat) (value : Value) :
    Except FormatError Text.RawText :=
  if spec.width < memoryLimit then convert spec letter place value
  else do
    let _ ← convert { spec with width := 0 } letter place value
    .error .memory

/-- A name in brackets and what follows it; inner brackets belong to it. -/
def bracketed? (depth : Nat) (name : List Char) : List Char → Option (String × List Char)
  | [] => none
  | c :: rest =>
      if c = '(' then bracketed? (depth + 1) (c :: name) rest
      else if c = ')' then
        match depth with
        | 0 => some (String.ofList name.reverse, rest)
        | depth + 1 => bracketed? depth (c :: name) rest
      else bracketed? depth (c :: name) rest

def flags (spec : Spec) : List Char → Spec × List Char
  | '-' :: rest => flags { spec with left := true } rest
  | '+' :: rest => flags { spec with plus := true } rest
  | ' ' :: rest => flags { spec with blank := true } rest
  | '0' :: rest => flags { spec with zero := true } rest
  | '#' :: rest => flags { spec with alternate := true } rest
  | cs => (spec, cs)

def number (cs : List Char) : Nat × List Char :=
  (Decimal.digitsValue (cs.takeWhile Decimal.isDigit), cs.dropWhile Decimal.isDigit)

/-- Amounts have a greatest value; digits and a star fail differently above it. -/
structure AmountLimit where
  most : Int
  written : FormatError
  taken : FormatError

def widthLimit : AmountLimit := ⟨9223372036854775807, .widthRange, .starWidthRange⟩

def precisionLimit : AmountLimit := ⟨2147483647, .precisionRange, .starPrecisionRange⟩

/-- A width or precision: digits, or a star for the next argument. -/
def amount (limit : AmountLimit) (values : List Value) (cs : List Char) :
    Except FormatError (Int × List Value × List Char) :=
  match cs with
  | '*' :: rest =>
      match values with
      | [] => .error .tooFewArguments
      | value :: others =>
          match wholeNumber? value with
          | some n =>
              if limit.most < n || n < -limit.most - 1 then .error limit.taken
              else .ok (n, others, rest)
          | none => .error .starNotInteger
  | _ =>
      let (n, rest) := number cs
      if limit.most < n then .error limit.written else .ok (n, values, rest)

/-- A place for an argument, read behind its percent sign, and the arguments that are left. -/
structure Placeholder where
  spec : Spec
  letter : Char
  rest : List Char
  values : List Value

/-- What arguments are looked up in by name. Lists and bytes can be looked into, though not by
name. -/
inductive Named where
  | nothing
  | members (held : List (String × Value))
  | numbered (holder : String)

/-- The arguments for a placeholder that names one: that one alone. -/
def selected (named : Named) (cs : List Char) : Except FormatError (List Value × List Char) :=
  match named with
  | .nothing => .error .noMapping
  | .numbered holder =>
      match bracketed? 0 [] cs with
      | none => .error .incompleteKey
      | some _ => .error (.keyNotInteger holder)
  | .members held =>
      match bracketed? 0 [] cs with
      | none => .error .incompleteKey
      | some (key, rest) =>
          match held.find? (fun member => member.1 = key) with
          | some (_, value) => .ok ([value], rest)
          | none => .error (.noKey key)

/-- The size of a width. The least one has no counterpart above zero and does not count. -/
def widthOf (width : Int) : Nat :=
  if width < -widthLimit.most then 0 else width.natAbs

/-- Reads a placeholder; `values` are the arguments that are left. -/
def placeholder (named : Named) (values : List Value) (cs : List Char) :
    Except FormatError Placeholder := do
  let (values, cs) ← match cs with
    | '(' :: rest => selected named rest
    | _ => .ok (values, cs)
  let (spec, cs) := flags .none cs
  let (width, values, cs) ← amount widthLimit values cs
  let spec := { spec with width := widthOf width, left := spec.left || width < 0 }
  let (spec, values, cs) ← match cs with
    | '.' :: rest => do
        let (precision, values, rest) ← amount precisionLimit values rest
        .ok ({ spec with precision := some precision.toNat }, values, rest)
    | _ => .ok (spec, values, cs)
  let cs := match cs with
    | 'h' :: rest | 'l' :: rest | 'L' :: rest => rest
    | _ => cs
  match cs with
  | letter :: rest => .ok ⟨spec, letter, rest, values⟩
  | [] => .error .incomplete

/-- Fills the places of a message; `length` is that of the whole message and tells where an error
is. Two percent signs stand for one. Every place takes at least its percent sign, so `fuel` is that
length too. -/
def fill (length : Nat) (named : Named) :
    (fuel : Nat) → (values : List Value) → List Char →
      Except FormatError (Text.RawText × List Value)
  | 0, values, _ => .ok (⟨[]⟩, values)
  | _, values, [] => .ok (⟨[]⟩, values)
  | fuel + 1, values, '%' :: '%' :: rest => do
      let (text, left) ← fill length named fuel values rest
      return (.append (.ofString "%") text, left)
  | fuel + 1, values, '%' :: rest => do
      let place ← placeholder named values rest
      match place.values with
      | [] => .error .tooFewArguments
      | value :: others =>
          let index := length - place.rest.length - 1
          let piece ← convertWithin place.spec place.letter index value
          let (text, left) ← fill length named fuel others place.rest
          return (.append piece text, left)
  | fuel + 1, values, c :: rest => do
      let plain := c :: rest.takeWhile (· ≠ '%')
      let (text, left) ← fill length named fuel values (rest.dropWhile (· ≠ '%'))
      return (.append (.ofString (String.ofList plain)) text, left)

/-- The arguments of a message: several, or one value that stands for itself. -/
inductive Arguments where
  | several (values : List Value)
  | single (value : Value)

/-- Fills the places of a message with the given values. All must be used, unless they can be looked
into. -/
def fillAll (message : String) (named : Named) (values : List Value) :
    Except FormatError Text.RawText := do
  let cs := message.toList
  let (text, left) ← fill cs.length named (cs.length + 1) values cs
  match named with
  | .nothing => if left.isEmpty then return text else .error .tooManyArguments
  | _ => return text

/-- A message with one argument. One that says nothing leaves the message as it is. -/
def formatSingle (message : String) (value : Value) : Except FormatError Text.RawText :=
  if value.isTelling then
    match value with
    | .mapping members => fillAll message (.members members) [value]
    | .list _ => fillAll message (.numbered "list") [value]
    | .bytes _ => fillAll message (.numbered "byte") [value]
    | .byteArray _ => fillAll message (.numbered "bytearray") [value]
    | _ => fillAll message .nothing [value]
  else .ok (.ofString message)

/-- A message with its arguments filled in. Without arguments a message stands for itself, and a
single non-empty mapping gives the arguments by name. -/
def formatMessage (message : String) : Arguments → Except FormatError Text.RawText
  | .single value => formatSingle message value
  | .several [] => .ok (.ofString message)
  | .several [.mapping (member :: members)] => formatSingle message (.mapping (member :: members))
  | .several values => fillAll message .nothing values

end TokenSearch.Logging
