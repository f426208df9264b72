/-
# The program's own log

What a node does without anyone asking can be told to a log of records. A record
has a severity, a text and named values.

Key definitions: `Trace.Severity`, `Trace.Value`, `Trace.Record`.
-/

namespace FlightLink
namespace Trace

/-- How much a record matters. -/
inductive Severity where
  | trace
  | debug
  | warn
  deriving DecidableEq, Repr

def Severity.name : Severity → String
  | trace => "TRACE"
  | debug => "DEBUG"
  | warn => "WARN"

/-- A value in a record. -/
inductive Value where
  | number (n : Int)
  | real (x : Float)
  | text (s : String)
  deriving Repr

/-- A natural number as a value. -/
def Value.count (n : Nat) : Value := .number n

/-- One entry of the log. -/
structure Record where
  severity : Severity
  message : String
  fields : List (String × Value)
  deriving Repr

end Trace
end FlightLink
