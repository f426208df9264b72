/-
# What becomes of stream bytes that are no message

A log stream delivers the bytes it takes in as frames. Where it cannot, a diagnostic
says what became of them and why, and the program's own log has a record of it.

Key definitions: `Diagnostic`, `Diagnostic.record`.
-/
import FlightLink.Trace

namespace FlightLink
namespace Log

/-- What a log stream found besides messages. -/
inductive Diagnostic where
  /-- Bytes of the file header, in front of the first message. -/
  | fileHeaderStripped (length : Nat)
  /-- The chunk was delivered before. -/
  | duplicateChunk (sequence : UInt16)
  | missingChunks (expected actual : UInt16)
  /-- The hint points past the end of its chunk. -/
  | invalidOffset (offset : UInt8) (length : Nat)
  /-- The message in progress does not end where the next one starts. -/
  | misaligned (discarded : Nat)
  /-- Bytes that continue a message when none is in progress. -/
  | orphanContinuation (discarded : Nat)
  /-- No message has such a header. -/
  | invalidHeader (tag : UInt8) (size : UInt16)
  /-- Bytes dropped on the way to the next message start. -/
  | discarded (length : Nat)
  /-- A message start was found again. -/
  | resynchronized (discarded : Nat)
  deriving DecidableEq, Repr

namespace Diagnostic

open Trace.Value in
/-- The diagnostic of the chunk `sequence` as a log record. -/
def record (sequence : UInt16) : Diagnostic → Trace.Record
  | fileHeaderStripped length =>
    ⟨.trace, "stripped log file header", [stamp sequence, ("len", count length)]⟩
  | duplicateChunk _ => ⟨.debug, "ignoring duplicate log chunk", [stamp sequence]⟩
  | missingChunks expected actual =>
    ⟨.warn, "missing log chunks",
      [("expected", count expected.toNat), ("actual", count actual.toNat)]⟩
  | invalidOffset offset length =>
    ⟨.warn, "first message offset past end of chunk",
      [stamp sequence, ("offset", count offset.toNat), ("len", count length)]⟩
  | misaligned bytes =>
    ⟨.warn, "log stream misaligned, dropping partial message",
      [stamp sequence, ("discarded", count bytes)]⟩
  | orphanContinuation bytes =>
    ⟨.debug, "continuation data with no message in progress",
      [stamp sequence, ("discarded", count bytes)]⟩
  | invalidHeader tag size =>
    ⟨.warn, "invalid log message header",
      [stamp sequence, ("msg_type", count tag.toNat), ("msg_size", count size.toNat)]⟩
  | discarded bytes =>
    ⟨.trace, "discarded log stream bytes", [stamp sequence, ("len", count bytes)]⟩
  | resynchronized bytes =>
    ⟨.debug, "log stream resynchronized", [stamp sequence, ("discarded", count bytes)]⟩
where
  stamp (sequence : UInt16) : String × Trace.Value := ("sequence", count sequence.toNat)

end Diagnostic

end Log
end FlightLink
