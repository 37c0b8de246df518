import TokenSearch.Text.RawText

namespace TokenSearch.Logging

/-! Levels of log records, and records themselves. -/

/-- The five levels at which this library logs. -/
inductive Level where
  | debug
  | info
  | warning
  | error
  | critical
deriving DecidableEq, Repr, Inhabited

namespace Level

def number : Level → Nat
  | .debug => 10
  | .info => 20
  | .warning => 30
  | .error => 40
  | .critical => 50

def name : Level → String
  | .debug => "DEBUG"
  | .info => "INFO"
  | .warning => "WARNING"
  | .error => "ERROR"
  | .critical => "CRITICAL"

end Level

/-- One thing to log: how important it is, who says it, and what. -/
structure Note where
  level : Level
  logger : String
  message : Text.RawText
deriving DecidableEq, Repr, Inhabited

end TokenSearch.Logging
