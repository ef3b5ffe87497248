/-!
# Log lines

What the library has to say beside its results. Every layer has a type of notices of its own,
which says what happened; a line is the form in which a notice is shown.
-/

namespace BoundMarkup

/-- How much a log line matters. -/
inductive Level where
  /-- Details of interest when looking for a fault. -/
  | debug
  /-- Progress. -/
  | info
  /-- Something was left out or refused. -/
  | warn
deriving DecidableEq, Repr

namespace Level

/-- The name of a level as logs show it. -/
def name : Level → String
  | debug => "DEBUG"
  | info => "INFO"
  | warn => "WARN"

end Level

/-- A line of the log. -/
structure LogLine where
  /-- How much it matters. -/
  level : Level
  /-- What it says. -/
  message : String
deriving DecidableEq, Repr

end BoundMarkup
