/-
# Chunks of a log

A logger sends its log in chunks, each with its sequence number and the place of the first message
that starts in it. A sender that waits for the acknowledgement of a chunk gets one.

Key definitions: `Chunk`, `Chunk.ofLogData`, `Chunk.ack?`.
-/
import FlightLink.Wire.Payload

namespace FlightLink
namespace Log

/-- A chunk of a log as its sender sent it. -/
structure Chunk where
  sender : Wire.Identity
  sequence : UInt16
  firstMessageOffset : UInt8
  data : Bytes
  deriving DecidableEq, Repr

/-- The chunk that a payload brings. -/
def Chunk.ofLogData (sender : Wire.Identity) (m : Wire.LogData) : Chunk :=
  ⟨sender, m.sequence, m.firstMessageOffset, m.data⟩

/-- The acknowledgement of a chunk, if its sender waits for one. -/
def Chunk.ack? (chunk : Chunk) (reliable : Bool) : Option Wire.LogAck :=
  if reliable then some ⟨chunk.sequence, chunk.sender⟩ else none

end Log
end FlightLink
