import TokenSearch.Data.Assoc
import TokenSearch.Decimal.Binary
import TokenSearch.Settings.Model
import TokenSearch.Text.Real

namespace TokenSearch.Settings

/-! Reading settings from given values. Texts are read generously: a number may be written with
blanks around it, a sign, underscores and a fraction of zeros. -/

/-- A value that is given for a setting. -/
inductive Value where
  | absent
  | flag (value : Bool)
  | integer (value : Int)
  | number (value : Float)
  | text (value : String)
  | compound
deriving Repr

/-- Blanks that may stand around a number. -/
def isSpace (c : Char) : Bool :=
  Text.isBlank c && !(0x1C ≤ c.toNat && c.toNat ≤ 0x1F)

/-- Single underscores between other characters are dropped. -/
def withoutUnderscores? (cs : List Char) : Option (List Char) :=
  let rec doubled : List Char → Bool
    | '_' :: '_' :: _ => true
    | _ :: rest => doubled rest
    | [] => false
  if cs.head? = some '_' || cs.getLast? = some '_' || doubled cs then none
  else some (cs.filter (· ≠ '_'))

/-- A fraction of zeros is dropped; there must be at least one. -/
def withoutFraction (cs : List Char) : List Char :=
  let whole := cs.takeWhile (· ≠ '.')
  match cs.drop whole.length with
  | '.' :: '0' :: fraction => if fraction.all (· = '0') then whole else cs
  | _ => cs

/-- The most characters of a number that is read as an integer. -/
def numeralLimit : Nat := 4300

/-- How the reading of a numeral ends. -/
inductive Numeral where
  | value (n : Int)
  | tooLong
  | malformed
deriving DecidableEq, Repr

/-- An integer in its plain form: a minus sign or none, and digits of which the first is no zero
unless it stands alone. Whether it is too long is told before what follows it is looked at. -/
def numeral (cs : List Char) : Numeral :=
  let (sign, body) : List Char × List Char := match cs with
    | '-' :: rest => (['-'], rest)
    | _ => ([], cs)
  let digits := body.takeWhile Decimal.isDigit
  if digits.isEmpty || (digits.head? = some '0' && 1 < digits.length) then .malformed
  else if numeralLimit < sign.length + digits.length then .tooLong
  else if digits.length < body.length then .malformed
  else
    let n : Int := Decimal.digitsValue digits
    .value (if sign.isEmpty then n else -n)

/-- Behind the zeros at the front of a number, among which underscores may stand. The last zero
stays before a point and at the end. -/
def behindZeros? (previous : Char) : List Char → Option (List Char)
  | [] => some [previous]
  | c :: rest =>
      if c = '0' || c = '_' then behindZeros? c rest
      else if Decimal.isDigit c then some (c :: rest)
      else if c = '.' then some (previous :: c :: rest)
      else none

def withoutZeros? (cs : List Char) : Option (List Char) :=
  match cs with
  | [] => none
  | '0' :: rest => behindZeros? '0' rest
  | c :: _ => if Decimal.isDigit c || c = '-' then some cs else none

/-- One plus sign is dropped; it may not stand before a minus sign. -/
def withoutPlus? : List Char → Option (List Char)
  | '+' :: '-' :: _ => none
  | '+' :: rest => some rest
  | cs => some cs

/-- A number in its plain form, as far as it has one. -/
def plainForm? (cs : List Char) : Option (List Char) := do
  let unsigned ← withoutPlus? (Text.trimWith isSpace cs)
  let whole := withoutFraction (← withoutZeros? unsigned)
  return (withoutUnderscores? whole).getD whole

/-- Reads an integer as it stands, or else in its plain form. -/
def integer (text : String) : Except Cause Int :=
  match numeral text.toList with
  | .value n => .ok n
  | .tooLong => .error .tooLong
  | .malformed =>
      match (plainForm? text.toList).map numeral with
      | some (.value n) => .ok n
      | _ => .error .unreadableInteger

def number? (text : String) : Option Float :=
  match Decimal.number? (Text.trimWith isSpace text.toList) with
  | some x => some x
  | none => (withoutUnderscores? text.toList).bind Decimal.number?

def flag? (text : String) : Option Bool :=
  let word := String.ofList (text.toList.map Char.toLower)
  if word ∈ ["1", "true", "t", "yes", "y", "on"] then some true
  else if word ∈ ["0", "false", "f", "no", "n", "off"] then some false
  else none

/-- The integer that a number without fraction stands for; it must be below 2^63 in size. -/
def wholePart (x : Float) : Except Cause Int :=
  match Decimal.Binary.ofFloat x with
  | .finite negative significand exponent =>
      let scale := Decimal.twoTo (-exponent).toNat
      if significand % scale = 0 then
        let n := significand / scale * Decimal.twoTo exponent.toNat
        if Decimal.twoTo 63 ≤ n then .error .tooLong else .ok (if negative then -(n : Int) else n)
      else .error .fraction
  | _ => .error .infinite

def readText : Value → Except Cause String
  | .text value => .ok value
  | _ => .error .notText

def readOptionalText : Value → Except Cause (Option String)
  | .absent => .ok none
  | value => (readText value).map some

def readInteger (least : Int) (value : Value) : Except Cause Int := do
  let n ← match value with
    | .integer n => .ok n
    | .flag b => .ok (if b then 1 else 0)
    | .number x => wholePart x
    | .text text => integer text
    | _ => .error .notInteger
  if n < least then .error (.below least) else return n

def readFlag : Value → Except Cause Bool
  | .flag b => .ok b
  | .text text =>
      match flag? text with
      | some b => .ok b
      | none => .error .unreadableBoolean
  | .integer n =>
      if n = 0 then .ok false
      else if n = 1 then .ok true
      else if -9223372036854775808 ≤ n && n < 9223372036854775808 then .error .unreadableBoolean
      else .error .notBoolean
  | .number x =>
      match wholePart x with
      | .ok 0 => .ok false
      | .ok 1 => .ok true
      | .ok _ => .error .unreadableBoolean
      | .error _ => .error .notBoolean
  | _ => .error .notBoolean

def readPositive (value : Value) : Except Cause Float := do
  let x ← match value with
    | .number x => .ok x
    | .flag b => .ok (if b then 1 else 0)
    | .integer n =>
        let x := Float.ofInt n
        if x.isInf then .error .notNumber else .ok x
    | .text text =>
        match number? text with
        | some x => .ok x
        | none => .error .unreadableNumber
    | _ => .error .notNumber
  if 0 < x then return x else .error .notPositive

/-- The values that are given, by field. -/
abbrev Input := Data.Assoc Field Value

def initial : Settings where
  indexDir := ".looker"
  extensions := "c,h"
  skipDirs := ".git,.hg,.svn"
  maxFileBytes := 16 * 1024 * 1024
  maxWorkers := 0
  searchLimit := 0
  logLevel := "warning"
  logJson := false
  otlpEndpoint := none
  otlpTimeout := 10.0
  metricsFile := none

def given (value : Value) : Given :=
  match value with
  | .text text => .text text
  | _ => .text ""

/-- Sets one field, or tells why its value does not do. -/
def setField (settings : Settings) (field : Field) (value : Value) : Except Cause Settings :=
  match field with
  | .indexDir => do return { settings with indexDir := ← readText value }
  | .extensions => do return { settings with extensions := ← readText value }
  | .skipDirs => do return { settings with skipDirs := ← readText value }
  | .maxFileBytes => do return { settings with maxFileBytes := ← readInteger 1 value }
  | .maxWorkers => do return { settings with maxWorkers := ← readInteger 0 value }
  | .searchLimit => do return { settings with searchLimit := ← readInteger 0 value }
  | .logLevel => do return { settings with logLevel := ← readText value }
  | .logJson => do return { settings with logJson := ← readFlag value }
  | .otlpEndpoint => do return { settings with otlpEndpoint := ← readOptionalText value }
  | .otlpTimeout => do return { settings with otlpTimeout := ← readPositive value }
  | .metricsFile => do return { settings with metricsFile := ← readOptionalText value }

/-- Sets the fields one after the other and collects what is wrong. -/
def setFields (input : Input) : List Field → Settings × List Problem → Settings × List Problem
  | [], state => state
  | field :: rest, (settings, problems) =>
      match Data.Assoc.get? input field with
      | none => setFields input rest (settings, problems)
      | some value =>
          match setField settings field value with
          | .ok settings => setFields input rest (settings, problems)
          | .error cause =>
              setFields input rest (settings, problems ++ [⟨some field, cause, given value⟩])

/-- Settings from the given values; a field that is not given keeps its initial value. Only if
each field is right for itself are the suffixes looked at; `listed` is what was given under any
name. -/
def ofInput (input : Input) (listed : List (String × String)) : Except (List Problem) Settings :=
  let (settings, problems) := setFields input Field.all (initial, [])
  if problems.isEmpty then
    if settings.suffixes.isEmpty then .error [⟨none, .noExtension, .named listed⟩]
    else .ok settings
  else .error problems

end TokenSearch.Settings
