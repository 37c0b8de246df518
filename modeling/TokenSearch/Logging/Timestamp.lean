import TokenSearch.Decimal.Binary
import TokenSearch.Decimal.Layout
import TokenSearch.Logging.Error
import TokenSearch.Logging.Value

namespace TokenSearch.Logging

/-! Points in time as text: date and time of day at longitude zero, with microseconds if there are
any. -/

/-- Seconds since the beginning of 1970, and microseconds beyond them. -/
structure Instant where
  seconds : Int
  micros : Nat
deriving DecidableEq, Repr

/-- Year, month and day of a day that is counted from the beginning of 1970. Years are taken to
start in March, so that a leap day is the last of its year. -/
def civil (day : Int) : Int × Nat × Nat :=
  let shifted := day + 719468
  let era := shifted / 146097
  let dayOfEra := (shifted % 146097).toNat
  let yearOfEra :=
    (dayOfEra - dayOfEra / 1460 + dayOfEra / 36524 - dayOfEra / 146096) / 365
  let dayOfYear := dayOfEra - (365 * yearOfEra + yearOfEra / 4 - yearOfEra / 100)
  let shiftedMonth := (5 * dayOfYear + 2) / 153
  let date := dayOfYear - (153 * shiftedMonth + 2) / 5 + 1
  let month := if shiftedMonth < 10 then shiftedMonth + 3 else shiftedMonth - 9
  let year := (yearOfEra : Int) + era * 400 + (if month ≤ 2 then 1 else 0)
  (year, month, date)

def Instant.year (instant : Instant) : Int := (civil (instant.seconds / 86400)).1

/-- Whether the year has at most four digits, as the text form needs it. -/
def Instant.isWritable (instant : Instant) : Bool :=
  1 ≤ instant.year && instant.year ≤ 9999

def Instant.text (instant : Instant) : String :=
  let (year, month, date) := civil (instant.seconds / 86400)
  let second := (instant.seconds % 86400).toNat
  let two := Decimal.padded 2
  Decimal.padded 4 year.toNat ++ "-" ++ two month ++ "-" ++ two date ++ "T" ++
    two (second / 3600) ++ ":" ++ two (second / 60 % 60) ++ ":" ++ two (second % 60) ++
    (if instant.micros = 0 then "" else "." ++ Decimal.padded 6 instant.micros) ++ "+00:00"

/-- The nearest integer; a half goes to the even neighbour. -/
def nearestInteger (x : Float) : Int :=
  match Decimal.Binary.ofFloat x with
  | .finite negative significand exponent =>
      let n : Int := Decimal.roundDiv (significand * Decimal.twoTo exponent.toNat)
        (Decimal.twoTo (-exponent).toNat)
      if negative then -n else n
  | _ => 0

/-- The seconds that can be counted: from -2^63 up to below 2^63. -/
def Instant.counts (seconds : Int) : Bool :=
  -9223372036854775808 ≤ seconds && seconds < 9223372036854775808

/-- The seconds whose year can be told, as a distance of at most 31 bits from 1900. -/
def Instant.hasDate (instant : Instant) : Bool :=
  -67768040609740800 ≤ instant.seconds && instant.seconds ≤ 67768036191676799

/-- The instant that a number of seconds stands for, to the nearest microsecond. -/
def Instant.ofNumber (x : Float) : Except FormatError Instant :=
  if x.isNaN then .error .undefinedTime
  else if x.isInf then .error .timeRange
  else
    let whole := if x < 0 then x.ceil else x.floor
    let micros := nearestInteger ((x - whole) * 1000000)
    let total := nearestInteger whole * 1000000 + micros
    let instant : Instant := ⟨total / 1000000, (total % 1000000).toNat⟩
    if counts instant.seconds then .ok instant else .error .timeRange

def Instant.ofSeconds (seconds : Int) : Except FormatError Instant :=
  if counts seconds then .ok ⟨seconds, 0⟩ else .error .timeRange

/-- The instant that a value stands for. -/
def Instant.ofValue : Value → Except FormatError Instant
  | .number x => ofNumber x
  | .integer n => ofSeconds n
  | .flag b => ofSeconds (if b then 1 else 0)
  | other => .error (.notInteger other.typeName)

/-- The text of an instant, whose year must have at most four digits. A year that cannot be written
is told as a number of 32 bits. -/
def Instant.written (instant : Instant) : Except FormatError String :=
  if !instant.hasDate then .error .dateRange
  else if !instant.isWritable then .error (.yearRange (instant.year.bmod 4294967296))
  else .ok instant.text

end TokenSearch.Logging
