/-
# The kinds of log message

A log is a sequence of framed messages of eleven kinds. The tag byte of a frame
names its kind; every tag is an uppercase letter.

Key definitions: `Kind`, `Kind.tag`, `Kind.ofTag?`, `Kind.all`.
Key theorems: `Kind.ofTag?_tag`.
-/
import FlightLink.Bytes

namespace FlightLink
namespace Log

/-- A kind of log message. -/
inductive Kind where
  | flagBits
  | format
  | info
  | infoMultiple
  | parameter
  | addLogged
  | removeLogged
  | data
  | logging
  | dropout
  | sync
  deriving DecidableEq, Repr

namespace Kind

/-- The tag byte of the kind: `B F I M P A R D L O S`. -/
def tag : Kind → UInt8
  | flagBits => 0x42
  | format => 0x46
  | info => 0x49
  | infoMultiple => 0x4d
  | parameter => 0x50
  | addLogged => 0x41
  | removeLogged => 0x52
  | data => 0x44
  | logging => 0x4c
  | dropout => 0x4f
  | sync => 0x53

def name : Kind → String
  | flagBits => "FlagBits"
  | format => "Format"
  | info => "Info"
  | infoMultiple => "InfoMultiple"
  | parameter => "Parameter"
  | addLogged => "AddLogged"
  | removeLogged => "RemoveLogged"
  | data => "Data"
  | logging => "Logging"
  | dropout => "Dropout"
  | sync => "Sync"

/-- All kinds, definitions first. -/
def all : List Kind :=
  [flagBits, format, info, infoMultiple, parameter, addLogged, removeLogged, data, logging,
    dropout, sync]

/-- The kind of a tag byte. -/
def ofTag? (tag : UInt8) : Option Kind := all.find? fun kind => kind.tag == tag

@[simp] theorem ofTag?_tag (kind : Kind) : ofTag? kind.tag = some kind := by
  cases kind <;> decide

end Kind

end Log
end FlightLink
