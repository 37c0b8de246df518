import TokenSearch.Decimal.Exact
import TokenSearch.Text.Quoted

namespace TokenSearch.Logging

/-! Why a record cannot be put into a line. -/

inductive FormatError where
  -- the values themselves
  | malformedNumber (written : String)
  | decimal (refusal : Decimal.Exact.Refusal)
  | unhashable (found : String)
  | unhashableSignal
  -- the places of a message
  | tooFewArguments
  | tooManyArguments
  | notNumber (letter : Char) (found : String)
  | notReal (found : String)
  | undefinedInteger
  | infiniteInteger
  | undefinedDecimal
  | infiniteDecimal
  | signal
  | tooManyDigits
  | floatRange
  | notCharacter
  | characterRange
  | noMapping
  | noKey (key : String)
  | keyNotInteger (holder : String)
  | incomplete
  | incompleteKey
  | unknownLetter (letter : Char) (place : Nat)
  | starNotInteger
  | widthRange
  | precisionRange
  | starWidthRange
  | starPrecisionRange
  | integerPrecision
  | memory
  -- the parts of a record
  | notInteger (found : String)
  | undefinedTime
  | timeRange
  | dateRange
  | yearRange (year : Int)
  | noAttribute (found name : String)
  | notCallable (found : String)
  | notSubscriptable (found : String)
  | noItem (holder : String)
  | noNumberedKey (key : Nat)
  -- the line
  | integerRange
  | surrogate
  | nesting
deriving DecidableEq, Repr

namespace FormatError

/-- A character that cannot be shown is shown as a question mark. -/
def shownLetter (letter : Char) : Char :=
  if 31 ≤ letter.toNat && letter.toNat ≤ 126 then letter else '?'

def message : FormatError → String
  | .malformedNumber written => "could not convert string to float: " ++ Text.Quoted.text written
  | .decimal .malformed => "[<class 'decimal.ConversionSyntax'>]"
  | .decimal .outOfRange => "[<class 'decimal.InvalidOperation'>]"
  | .unhashable found => "unhashable type: '" ++ found ++ "'"
  | .unhashableSignal => "Cannot hash a signaling NaN value"
  | .tooFewArguments => "not enough arguments for format string"
  | .tooManyArguments => "not all arguments converted during string formatting"
  | .notNumber letter found =>
      "%" ++ String.ofList [letter] ++ " format: " ++
        (if letter ∈ ['x', 'X', 'o'] then "an integer is required, not "
          else "a real number is required, not ") ++ found
  | .notReal found => "must be real number, not " ++ found
  | .undefinedInteger => "cannot convert float NaN to integer"
  | .infiniteInteger => "cannot convert float infinity to integer"
  | .undefinedDecimal => "cannot convert NaN to integer"
  | .infiniteDecimal => "cannot convert Infinity to integer"
  | .signal => "cannot convert signaling NaN to float"
  | .tooManyDigits =>
      "Exceeds the limit (" ++ toString Text.Integer.digitLimit ++ " digits) for integer string " ++
        "conversion; use sys.set_int_max_str_digits() to increase the limit"
  | .floatRange => "int too large to convert to float"
  | .notCharacter => "%c requires int or char"
  | .characterRange => "%c arg not in range(0x110000)"
  | .noMapping => "format requires a mapping"
  | .noKey key => Text.Quoted.text key
  | .keyNotInteger holder => holder ++ " indices must be integers or slices, not str"
  | .incomplete => "incomplete format"
  | .incompleteKey => "incomplete format key"
  | .unknownLetter letter place =>
      "unsupported format character '" ++ String.ofList [shownLetter letter] ++ "' (0x" ++
        String.ofList (Nat.toDigits 16 letter.toNat) ++ ") at index " ++ toString place
  | .starNotInteger => "* wants int"
  | .widthRange => "width too big"
  | .precisionRange => "precision too big"
  | .starWidthRange => "Python int too large to convert to C ssize_t"
  | .starPrecisionRange => "Python int too large to convert to C int"
  | .integerPrecision => "precision too large"
  | .memory => ""
  | .notInteger found => "'" ++ found ++ "' object cannot be interpreted as an integer"
  | .undefinedTime => "Invalid value NaN (not a number)"
  | .timeRange => "timestamp out of range for platform time_t"
  | .dateRange => "[Errno 75] Value too large for defined data type"
  | .yearRange year => "year " ++ toString year ++ " is out of range"
  | .noAttribute found name => "'" ++ found ++ "' object has no attribute '" ++ name ++ "'"
  | .notCallable found => "'" ++ found ++ "' object is not callable"
  | .notSubscriptable found => "'" ++ found ++ "' object is not subscriptable"
  | .noItem holder => holder ++ "index out of range"
  | .noNumberedKey key => toString key
  | .integerRange => "Integer exceeds 64-bit range"
  | .surrogate => "str is not valid UTF-8: surrogates not allowed"
  | .nesting => "Recursion limit reached"

/-- The name under which errors of this kind are known. -/
def label : FormatError → String
  | .decimal _ => "InvalidOperation"
  | .characterRange | .infiniteInteger | .infiniteDecimal | .floatRange | .starWidthRange
  | .starPrecisionRange | .integerPrecision | .timeRange => "OverflowError"
  | .memory => "MemoryError"
  | .noKey _ | .noNumberedKey _ => "KeyError"
  | .malformedNumber _ | .incomplete | .incompleteKey | .unknownLetter _ _ | .undefinedInteger
  | .undefinedDecimal | .signal | .tooManyDigits | .widthRange | .precisionRange | .undefinedTime
  | .yearRange _ => "ValueError"
  | .dateRange => "OSError"
  | .noAttribute _ _ => "AttributeError"
  | .noItem _ => "IndexError"
  | _ => "TypeError"

end FormatError

end TokenSearch.Logging
