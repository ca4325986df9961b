/-!
# Log lines

A log line has a level, a fixed message and named fields. Fields that are absent are left out.
-/

namespace JobFleet

/-- How serious a log line is. -/
inductive Level
  | debug
  | info
  | warn
  | error
deriving DecidableEq, Repr

/-- The value of a field. -/
inductive Field
  | text (s : String)
  | integer (n : Int)
  | flag (b : Bool)
deriving DecidableEq, Repr

/-- One log line. -/
structure LogLine where
  level : Level
  message : String
  fields : List (String × Field)
deriving DecidableEq, Repr

/-- The word for a level. -/
def Level.text : Level → String
  | .debug => "DEBUG"
  | .info => "INFO"
  | .warn => "WARN"
  | .error => "ERROR"

end JobFleet
