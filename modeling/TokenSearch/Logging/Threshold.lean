import TokenSearch.Logging.Level

namespace TokenSearch.Logging

/-! Which records are shown, and how levels are called. -/

/-- The name of a level by its number. -/
def levelName (number : Int) : String :=
  if number = 10 then "DEBUG"
  else if number = 20 then "INFO"
  else if number = 30 then "WARNING"
  else if number = 40 then "ERROR"
  else if number = 50 then "CRITICAL"
  else if number = 0 then "NOTSET"
  else "Level " ++ toString number

/-- Capital letters. A dotless i and a long s have plain ones, and a joined st has two. -/
def capitals (c : Char) : List Char :=
  if c = 'ı' then ['I']
  else if c = 'ſ' then ['S']
  else if c = 'ﬅ' || c = 'ﬆ' then ['S', 'T']
  else [c.toUpper]

/-- Names that are taken by something other than a level: the pattern of plain lines, and the styles
of patterns. -/
inductive TakenName where
  | pattern
  | styles
deriving DecidableEq, Repr

def TakenName.message : TakenName → String
  | .pattern => "Unknown level: '%(levelname)s:%(name)s:%(message)s'"
  | .styles =>
      "Level not an integer or a valid string: \x7b'%': (<class 'logging.PercentStyle'>, " ++
        "'%(levelname)s:%(name)s:%(message)s'), '\x7b': (<class 'logging.StrFormatStyle'>, " ++
        "'\x7blevelname\x7d:\x7bname\x7d:\x7bmessage\x7d'), " ++
        "'$': (<class 'logging.StringTemplateStyle'>, " ++
        "'$\x7blevelname\x7d:$\x7bname\x7d:$\x7bmessage\x7d')\x7d"

/-- The least level to be shown, by its name in any case; an unknown name means warnings. -/
def threshold (name : String) : Except TakenName Nat :=
  let word := String.ofList (name.toList.flatMap capitals)
  if word = "BASIC_FORMAT" then .error .pattern
  else if word = "_STYLES" then .error .styles
  else if word = "NOTSET" then .ok 0
  else if word = "DEBUG" then .ok 10
  else if word = "INFO" then .ok 20
  else if word = "ERROR" then .ok 40
  else if word = "CRITICAL" || word = "FATAL" then .ok 50
  else .ok 30

/-- A level of zero or less is never shown. -/
def isShown (threshold : Nat) (level : Int) : Bool :=
  0 < level && (threshold : Int) ≤ level

end TokenSearch.Logging
