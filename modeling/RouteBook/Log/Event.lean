/-! What is logged: events with fields, inside spans that tell what was going on. -/

namespace RouteBook.Log

inductive Level where
  | error
  | warn
  | info
  | debug
  | trace
  deriving DecidableEq, Repr

namespace Level

def name : Level → String
  | .error => "ERROR"
  | .warn => "WARN"
  | .info => "INFO"
  | .debug => "DEBUG"
  | .trace => "TRACE"

/-- Levels by how much they let through: an error is let through by every level. -/
def verbosity : Level → Nat
  | .error => 1
  | .warn => 2
  | .info => 3
  | .debug => 4
  | .trace => 5

end Level

inductive FieldValue where
  /-- A text that is shown as it is. -/
  | text (value : String)
  /-- A text that is shown in quotes where fields stand in a line. -/
  | string (value : String)
  | number (value : Nat)
  /-- A time that passed, in milliseconds; only a clock knows it. -/
  | elapsed
  deriving DecidableEq, Repr

abbrev Fields := List (String × FieldValue)

structure Span where
  name : String
  fields : Fields
  level : Level := .info
  deriving DecidableEq, Repr

structure Event where
  level : Level
  /-- The part of the program that speaks. -/
  target : String
  message : String
  fields : Fields
  /-- The spans around the event, outermost first. -/
  spans : List Span
  deriving DecidableEq, Repr

/-- Puts a span around an event. -/
def Event.inside (span : Span) (event : Event) : Event := { event with spans := span :: event.spans }

end RouteBook.Log
