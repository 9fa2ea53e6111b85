/-!
# Log events

What the library has to say while it works: a level, where it comes from, a message and fields.

## Main definitions

* `Logging.Level` — how detailed an event is.
* `Logging.Event` — one event.
-/

namespace MergedMining.Logging

/-- How detailed an event is, most important first. -/
inductive Level where
  /-- Something failed. -/
  | error
  /-- Something is odd. -/
  | warn
  /-- Something is worth knowing. -/
  | info
  /-- Something helps to find faults. -/
  | debug
  /-- Something happened. -/
  | trace
  deriving DecidableEq, Repr, Inhabited

namespace Level

/-- Where the level stands among the five, most important first. -/
def rank : Level → Nat
  | .error => 1
  | .warn => 2
  | .info => 3
  | .debug => 4
  | .trace => 5

/-- The name in capitals. -/
def name : Level → String
  | .error => "ERROR"
  | .warn => "WARN"
  | .info => "INFO"
  | .debug => "DEBUG"
  | .trace => "TRACE"

/-- The name in small letters, as filters spell it. -/
def filterName (level : Level) : String := level.name.map Char.toLower

/-- Whether a log kept at level `least` shows an event of this level. -/
def isShownAt (level least : Level) : Bool := level.rank ≤ least.rank

end Level

/-- The value of a field. -/
inductive FieldValue where
  /-- A text. -/
  | text (value : String)
  /-- A number. -/
  | number (value : Int)
  /-- A truth value. -/
  | flag (value : Bool)
  deriving DecidableEq, Repr

/-- The text of a field's value. -/
def FieldValue.toText : FieldValue → String
  | .text value => value
  | .number value => toString value
  | .flag value => if value then "true" else "false"

/-- One event. -/
structure Event where
  /-- How detailed it is. -/
  level : Level
  /-- The part of the program it comes from. -/
  target : String
  /-- What is said. -/
  message : String
  /-- What it is said about. -/
  fields : List (String × FieldValue)
  deriving DecidableEq, Repr

end MergedMining.Logging
