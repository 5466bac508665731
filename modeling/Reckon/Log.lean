/-!
# Log records

What a component reports about its work, as values. A record has a level of importance, the name of
the component it comes from and a message.
-/

namespace Reckon

/-- The importance of a log record, least first. -/
inductive LogLevel where
  | debug
  | info
  | warning
  | error
  deriving DecidableEq, Repr

namespace LogLevel

/-- The name of a level. -/
def name : LogLevel → String
  | debug => "DEBUG"
  | info => "INFO"
  | warning => "WARNING"
  | error => "ERROR"

/-- The record matters also to a reader who did not ask for details. -/
def isNotable : LogLevel → Bool
  | debug | info => false
  | warning | error => true

end LogLevel

/-- What a component reports about its work. -/
structure LogRecord where
  /-- How important the record is. -/
  level : LogLevel
  /-- The component it comes from. -/
  origin : String
  /-- What happened. -/
  message : String
  deriving DecidableEq, Repr

end Reckon
