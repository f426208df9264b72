/-
# Frames

A log message travels in a frame: the length of its payload, its tag and the
payload. A header is believed only if its tag is an uppercase letter, as every
tag is; any other byte there means that the bytes before it were no header.

Key definitions: `Header`, `Header.credible`, `Frame`, `Frame.toBytes`.
Key theorems: `Header.credible_iff`, `Header.read_write`.
-/
import FlightLink.Bytes.LittleEndian

namespace FlightLink
namespace Log

/-- What a frame begins with. -/
structure Header where
  /-- Length of the payload. -/
  size : UInt16
  tag : UInt8
  deriving DecidableEq, Repr

namespace Header

def length : Nat := 3

/-- The header in front of some bytes, and the bytes after it. -/
def read? : Bytes → Option (Header × Bytes)
  | low :: high :: tag :: rest => some (⟨LittleEndian.toUInt16 [low, high], tag⟩, rest)
  | _ => none

def write (header : Header) : Bytes := LittleEndian.ofUInt16 header.size ++ [header.tag]

/-- The tag is an uppercase letter. -/
def credible (header : Header) : Bool := 0x41 ≤ header.tag && header.tag ≤ 0x5a

theorem credible_iff {header : Header} :
    header.credible = true ↔ 0x41 ≤ header.tag ∧ header.tag ≤ 0x5a := by
  simp [credible]

theorem read_write (header : Header) (rest : Bytes) :
    read? (header.write ++ rest) = some (header, rest) := by
  cases header with
  | mk size tag =>
    have h := LittleEndian.toUInt16_ofUInt16 size []
    simpa [write, read?, LittleEndian.ofUInt16, LittleEndian.encode] using h

end Header

/-- A tag and a payload. -/
structure Frame where
  tag : UInt8
  payload : Bytes
  deriving DecidableEq, Repr

namespace Frame

/-- The header of a frame of at most 65535 payload bytes. -/
def header (frame : Frame) : Header := ⟨UInt16.ofNat frame.payload.length, frame.tag⟩

def toBytes (frame : Frame) : Bytes := frame.header.write ++ frame.payload

end Frame

end Log
end FlightLink
