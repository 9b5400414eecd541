/-!
# Log records

What the host reports about its work is a list of records.  A record has a
level, a message and named fields.  The list is part of the result of every
function that reports anything, in the order in which things happened.
-/

namespace RemoteInput.Log

/-- How much a record matters. -/
inductive Level where
  | error
  | warn
  | info
  | debug
  | trace
  deriving DecidableEq

namespace Level

/-- Every level, the one that matters most first. -/
def all : List Level := [.error, .warn, .info, .debug, .trace]

/-- The name of a level. -/
def name : Level → String
  | .error => "ERROR"
  | .warn => "WARN"
  | .info => "INFO"
  | .debug => "DEBUG"
  | .trace => "TRACE"

end Level

/-- The value of a field. -/
inductive Value where
  | count (n : Nat)
  | text (s : String)
  | real (x : Float)
  deriving DecidableEq

/-- One report. -/
structure Record where
  /-- How much it matters. -/
  level : Level
  /-- What happened. -/
  message : String
  /-- What it happened to. -/
  fields : List (String × Value) := []
  deriving DecidableEq

end RemoteInput.Log
