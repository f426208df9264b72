/-
# What comes in and what goes out

`Inbound` is what a node consumes, found by its message number; `Outbound` is
what it answers with.

Key definitions: `Inbound`, `Inbound.read`, `Outbound`, `Outbound.write`.
-/
import FlightLink.Wire.Payload

namespace FlightLink
namespace Wire

/-- A message that a node consumes. -/
inductive Inbound where
  | systemTime (m : SystemTime)
  | timesync (m : Timesync)
  | logData (m : LogData)
  /-- Log data whose sender waits for an acknowledgement. -/
  | logDataAcked (m : LogData)
  deriving DecidableEq, Repr

namespace Inbound

/-- The message of a payload, by its number. -/
def read (id : MessageId) (payload : Bytes) : Except Fault Inbound :=
  if id = SystemTime.id then .ok (.systemTime (.read payload))
  else if id = Timesync.id then .ok (.timesync (.read payload))
  else if id = LogData.id then .ok (.logData (.read payload))
  else if id = LogData.ackedId then .ok (.logDataAcked (.read payload))
  else .error (.unknownMessageId id)

def id : Inbound → MessageId
  | systemTime _ => SystemTime.id
  | timesync _ => Timesync.id
  | logData _ => LogData.id
  | logDataAcked _ => LogData.ackedId

end Inbound

/-- A message that a node sends. -/
inductive Outbound where
  | systemTime (m : SystemTime)
  | timesync (m : Timesync)
  | logAck (m : LogAck)
  deriving DecidableEq, Repr

namespace Outbound

def id : Outbound → MessageId
  | systemTime _ => SystemTime.id
  | timesync _ => Timesync.id
  | logAck _ => LogAck.id

def write : Outbound → Bytes
  | systemTime m => m.write
  | timesync m => m.write
  | logAck m => m.write

end Outbound

end Wire
end FlightLink
