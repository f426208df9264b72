/-
# Log messages as bytes

How a payload of each kind is laid out. `Message.read` names what is wrong with
a payload, in the order in which its fields come: too few bytes for the fixed
part or the key, then a text that is no UTF-8, then a sync marker that is none.
Bytes after the last field are not looked at. `Message.write` fails where a key or
a payload is longer than its length field can say, and looks at the key first.

Key definitions: `Message.read`, `Message.payload`, `Message.write`.
-/
import FlightLink.Bytes.LittleEndian
import FlightLink.Fault
import FlightLink.Log.Frame
import FlightLink.Log.Message

namespace FlightLink
namespace Log
namespace Message

/-- The marker that a sync message consists of. -/
def syncMagic : Bytes := [0x2f, 0x73, 0x13, 0x20, 0x25, 0x0c, 0xbb, 0x12]

/-! ### Reading -/

/-- At least `minimum` bytes. -/
def need (minimum : Nat) (bytes : Bytes) : Except Fault Unit :=
  if bytes.length < minimum then .error (.notEnoughData bytes.length minimum) else .ok ()

/-- A text field. -/
def readText (bytes : Bytes) : Except Fault String :=
  (Utf8.decode bytes).mapError .invalidText

/-- A key behind its length byte, and what follows it. -/
def readKeyed (bytes : Bytes) : Except Fault (String × Bytes) := do
  need 1 bytes
  let length := (bytes.getD 0 0).toNat
  need (1 + length) bytes
  let key ← readText ((bytes.drop 1).take length)
  return (key, bytes.drop (1 + length))

/-- The flags of a payload of at least 40 bytes. -/
def readFlags (payload : Bytes) : FlagBits where
  compatible := Vector.ofFn fun i => payload.getD i 0
  incompatible := Vector.ofFn fun i => payload.getD (8 + i) 0
  appendedOffsets := Vector.ofFn fun i => LittleEndian.toUInt64 (payload.drop (16 + 8 * i))

/-- The message of a payload of the given kind. -/
def read (kind : Kind) (payload : Bytes) : Except Fault Message :=
  match kind with
  | .flagBits => do
    need 40 payload
    return .flagBits (readFlags payload)
  | .format => do
    return .format (← readText payload)
  | .info => do
    let (key, value) ← readKeyed payload
    return .info key value
  | .infoMultiple => do
    need 1 payload
    let (key, value) ← readKeyed (payload.drop 1)
    return .infoMultiple (payload.getD 0 0 ≠ 0) key value
  | .parameter => do
    let (key, value) ← readKeyed payload
    return .parameter key value
  | .addLogged => do
    need 3 payload
    let name ← readText (payload.drop 3)
    return .addLogged (payload.getD 0 0) (LittleEndian.toUInt16 (payload.drop 1)) name
  | .removeLogged => do
    need 2 payload
    return .removeLogged (LittleEndian.toUInt16 payload)
  | .data => do
    need 2 payload
    return .data (LittleEndian.toUInt16 payload) (payload.drop 2)
  | .logging => do
    need 9 payload
    let text ← readText (payload.drop 9)
    return .logging (Level.ofByte (payload.getD 0 0)) (LittleEndian.toUInt64 (payload.drop 1)) text
  | .dropout => do
    need 2 payload
    return .dropout (LittleEndian.toUInt16 payload)
  | .sync => do
    need syncMagic.length payload
    if payload.take syncMagic.length = syncMagic then return .sync else .error .wrongSyncMagic

/-! ### Writing -/

/-- A key behind its length byte. -/
def writeKey (key : String) : Except Oversize Bytes :=
  let bytes := Utf8.encode key
  if bytes.length ≤ 255 then .ok (UInt8.ofNat bytes.length :: bytes) else .error .key

/-- The payload of a message. -/
def payload : Message → Except Oversize Bytes
  | .flagBits flags =>
    .ok (flags.compatible.toList ++ flags.incompatible.toList
      ++ flags.appendedOffsets.toList.flatMap LittleEndian.ofUInt64)
  | .format definition => .ok (Utf8.encode definition)
  | .info key value => do return (← writeKey key) ++ value
  | .infoMultiple continued key value => do
    return (if continued then 1 else 0) :: ((← writeKey key) ++ value)
  | .parameter key value => do return (← writeKey key) ++ value
  | .addLogged multiId messageId name =>
    .ok (multiId :: (LittleEndian.ofUInt16 messageId ++ Utf8.encode name))
  | .removeLogged messageId => .ok (LittleEndian.ofUInt16 messageId)
  | .data messageId content => .ok (LittleEndian.ofUInt16 messageId ++ content)
  | .logging level timestamp text =>
    .ok (level.toByte :: (LittleEndian.ofUInt64 timestamp ++ Utf8.encode text))
  | .dropout duration => .ok (LittleEndian.ofUInt16 duration)
  | .sync => .ok syncMagic

/-- The message as a frame. -/
def frame (m : Message) : Except Oversize Frame := do
  let payload ← m.payload
  if payload.length ≤ 65535 then return ⟨m.kind.tag, payload⟩ else .error .payload

/-- The message with its header. -/
def write (m : Message) : Except Oversize Bytes := do
  return (← m.frame).toBytes

end Message
end Log
end FlightLink
