/-
# The payloads of the link

Four payloads cross the link: the wall-clock broadcast, the round-trip probe, a
chunk of log data and the acknowledgement of one. Each has a full length; what a
sender left out at the end is zero and what it added counts for nothing
(`Bytes.fit`), so reading never fails. Writing gives the full length.

Key definitions: `SystemTime`, `Timesync`, `LogData`, `LogAck`, each with `read`
and `write`.
-/
import FlightLink.Bytes.LittleEndian
import FlightLink.Fault

namespace FlightLink
namespace Wire

/-- The system and component number of a node on the link. -/
structure Identity where
  systemId : UInt8
  componentId : UInt8
  deriving DecidableEq, Repr

/-- An identity as the program's own log shows it. -/
def Identity.describe (node : Identity) : String :=
  "Identity \x7b system_id: " ++ toString node.systemId.toNat
    ++ ", component_id: " ++ toString node.componentId.toNat ++ " \x7d"

/-- The number that tells the messages of the link apart. -/
abbrev MessageId := UInt32

/-! ### Wall-clock broadcast -/

/-- A node's wall-clock time. -/
structure SystemTime where
  /-- Microseconds since 1970. -/
  unixUsec : UInt64
  /-- Milliseconds since the node started. -/
  bootMs : UInt32
  deriving DecidableEq, Repr

namespace SystemTime

def id : MessageId := 2

def length : Nat := 12

/-- Times before this (2009-02-13T23:31:30Z) mean that the sender's clock is not set. -/
def firstValidUnixUsec : UInt64 := 1234567890000000

def valid (m : SystemTime) : Bool := firstValidUnixUsec ≤ m.unixUsec

def read (payload : Bytes) : SystemTime :=
  let bytes := payload.fit length
  ⟨LittleEndian.toUInt64 bytes, LittleEndian.toUInt32 (bytes.drop 8)⟩

def write (m : SystemTime) : Bytes :=
  LittleEndian.ofUInt64 m.unixUsec ++ LittleEndian.ofUInt32 m.bootMs

end SystemTime

/-! ### Round-trip probe -/

/-- A probe or its answer. The sender of a probe stamps it with `ts1` and leaves `tc1`
zero; the answer brings `ts1` back with the time of the answer in `tc1`. -/
structure Timesync where
  tc1 : Int64
  ts1 : Int64
  deriving DecidableEq, Repr

namespace Timesync

def id : MessageId := 111

def length : Nat := 16

/-- The sender asks for an answer. -/
def isRequest (m : Timesync) : Bool := m.tc1 == 0

def read (payload : Bytes) : Timesync :=
  let bytes := payload.fit length
  ⟨LittleEndian.toInt64 bytes, LittleEndian.toInt64 (bytes.drop 8)⟩

def write (m : Timesync) : Bytes :=
  LittleEndian.ofInt64 m.tc1 ++ LittleEndian.ofInt64 m.ts1

end Timesync

/-! ### Chunk of log data -/

/-- A chunk of a log stream. -/
structure LogData where
  sequence : UInt16
  target : Identity
  /-- Offset in `data` of the first message start, or `noMessageStart`. -/
  firstMessageOffset : UInt8
  data : Bytes
  deriving DecidableEq, Repr

namespace LogData

def id : MessageId := 266

/-- The same payload, to be acknowledged by its receiver. -/
def ackedId : MessageId := 267

/-- Room for data in one chunk. -/
def capacity : Nat := 249

/-- Bytes of a payload in front of its data. -/
def headLength : Nat := 6

def length : Nat := headLength + capacity

/-- The offset of a chunk in which no message starts. -/
def noMessageStart : UInt8 := 255

/-- A length byte past the room for data counts as all of the room. -/
def read (payload : Bytes) : LogData :=
  let bytes := payload.fit length
  { sequence := LittleEndian.toUInt16 bytes
    target := ⟨bytes.getD 2 0, bytes.getD 3 0⟩
    firstMessageOffset := bytes.getD 5 0
    data := (bytes.drop headLength).take (min (bytes.getD 4 0).toNat capacity) }

/-- The data is filled up with zeros; data that does not fit cannot be written. -/
def write (m : LogData) : Except Oversize Bytes :=
  if m.data.length ≤ capacity then
    .ok (LittleEndian.ofUInt16 m.sequence
      ++ [m.target.systemId, m.target.componentId, UInt8.ofNat m.data.length, m.firstMessageOffset]
      ++ m.data.fit capacity)
  else
    .error .logData

end LogData

/-! ### Acknowledgement -/

/-- The acknowledgement of the chunk `sequence` to its sender. -/
structure LogAck where
  sequence : UInt16
  target : Identity
  deriving DecidableEq, Repr

namespace LogAck

def id : MessageId := 268

def length : Nat := 4

def read (payload : Bytes) : LogAck :=
  let bytes := payload.fit length
  ⟨LittleEndian.toUInt16 bytes, ⟨bytes.getD 2 0, bytes.getD 3 0⟩⟩

def write (m : LogAck) : Bytes :=
  LittleEndian.ofUInt16 m.sequence ++ [m.target.systemId, m.target.componentId]

end LogAck

end Wire
end FlightLink
