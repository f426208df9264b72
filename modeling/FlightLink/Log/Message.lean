/-
# Log messages

A log message is one of eleven kinds. A definition message holds the format of
a logged type as one text, `name:field;field;`, which `Definition` takes apart.

Key definitions: `Message`, `Message.kind`, `Definition.name?`, `Definition.fields`.
-/
import FlightLink.Log.Kind
import FlightLink.Log.Level

namespace FlightLink
namespace Log

/-- The flags of a log, and where in the file data was appended to it. -/
structure FlagBits where
  compatible : Vector UInt8 8
  incompatible : Vector UInt8 8
  /-- File offsets of the appended data, zero for none. -/
  appendedOffsets : Vector UInt64 3
  deriving DecidableEq, Repr

/-- A log message. -/
inductive Message where
  | flagBits (flags : FlagBits)
  /-- The format of a logged type. -/
  | format (definition : String)
  | info (key : String) (value : Bytes)
  /-- Information in several messages; `continued` ones carry on the value of the last. -/
  | infoMultiple (continued : Bool) (key : String) (value : Bytes)
  | parameter (key : String) (value : Bytes)
  /-- From here on `messageId` stands for the logged type `name`. -/
  | addLogged (multiId : UInt8) (messageId : UInt16) (name : String)
  | removeLogged (messageId : UInt16)
  /-- One value of a logged type, laid out as its definition says. -/
  | data (messageId : UInt16) (content : Bytes)
  /-- A text, with its time in microseconds. -/
  | logging (level : Level) (timestamp : UInt64) (text : String)
  /-- Data lost by the logger for this many milliseconds. -/
  | dropout (duration : UInt16)
  /-- A marker to find message boundaries in a damaged file. -/
  | sync
  deriving DecidableEq, Repr

def Message.kind : Message → Kind
  | flagBits .. => .flagBits
  | format .. => .format
  | info .. => .info
  | infoMultiple .. => .infoMultiple
  | parameter .. => .parameter
  | addLogged .. => .addLogged
  | removeLogged .. => .removeLogged
  | data .. => .data
  | logging .. => .logging
  | dropout .. => .dropout
  | sync => .sync

/-! ### Definitions -/

namespace Definition

/-- The runs of characters between separators, empty ones included. -/
def runs (separator : Char) : List Char → List (List Char)
  | [] => [[]]
  | c :: cs =>
    if c = separator then [] :: runs separator cs
    else
      match runs separator cs with
      | [] => [[c]]
      | run :: rest => (c :: run) :: rest

/-- The type name, which ends at the first colon; a text without colon has none. -/
def name? (text : String) : Option String :=
  if ':' ∈ text.toList then some (String.ofList (text.toList.takeWhile (· ≠ ':'))) else none

/-- The fields: what stands between the semicolons after the first colon. -/
def fields (text : String) : List String :=
  let body := (text.toList.dropWhile (· ≠ ':')).drop 1
  ((runs ';' body).filter (· ≠ [])).map String.ofList

end Definition

end Log
end FlightLink
