import SignedToken.Text

/-!
This module contains the records that operations leave in a log.
-/

namespace SignedToken

inductive LogLevel where
  | debug
  | info
  | error
  deriving DecidableEq, Repr

namespace LogLevel

def name : LogLevel → String
  | debug => "DEBUG"
  | info => "INFO"
  | error => "ERROR"

end LogLevel

structure LogRecord where
  level : LogLevel
  logger : String
  message : Text
  deriving DecidableEq, Repr

namespace LogRecord

def line (r : LogRecord) : Text :=
  Text.ofString (r.level.name ++ " " ++ r.logger ++ ": ") ++ r.message

end LogRecord

end SignedToken
