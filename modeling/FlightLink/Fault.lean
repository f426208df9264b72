/-
# What can be wrong with bytes, and with values

`Fault` says why bytes cannot be read, `Oversize` why a value cannot be written.
Both are causes; `message` puts them into words.

Key definitions: `Fault`, `Fault.message`, `Oversize`, `Oversize.message`.
-/
import FlightLink.Bytes.Utf8

namespace FlightLink

/-- Two lowercase hexadecimal digits. -/
def hexByte (b : UInt8) : String :=
  String.ofList [Nat.digitChar (b.toNat / 16), Nat.digitChar (b.toNat % 16)]

/-- Why bytes cannot be read. -/
inductive Fault where
  /-- Only `actual` bytes where a message needs `minimum`. -/
  | notEnoughData (actual minimum : Nat)
  /-- A text field that is not UTF-8. -/
  | invalidText (fault : Utf8.Fault)
  /-- A frame tag that stands for no kind of message. -/
  | unknownKind (tag : UInt8)
  /-- A sync message without its marker. -/
  | wrongSyncMagic
  /-- A payload of a message that nothing here consumes. -/
  | unknownMessageId (id : UInt32)
  deriving DecidableEq, Repr

/-- The fault in words. -/
def Fault.message : Fault → String
  | .notEnoughData _ _ => "Not enough bytes"
  | .invalidText fault => "Invalid UTF-8 in message text: " ++ fault.message
  | .unknownKind tag => "Unknown log message kind 0x" ++ hexByte tag
  | .wrongSyncMagic => "Sync message magic does not match"
  | .unknownMessageId id => "Unknown message id " ++ toString id.toNat

/-- Why a value cannot be written: it has a part that its place on the wire cannot hold. -/
inductive Oversize where
  /-- More than 249 bytes of log data. -/
  | logData
  /-- A key of more than 255 bytes. -/
  | key
  /-- A log message payload of more than 65535 bytes. -/
  | payload
  deriving DecidableEq, Repr

/-- The cause in words. -/
def Oversize.message : Oversize → String
  | .logData => "logging data too long"
  | .key => "key longer than 255 bytes"
  | .payload => "payload too large for a ULog message"

end FlightLink
