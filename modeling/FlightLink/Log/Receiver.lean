/-
# Receiving a log

A receiver takes in the chunks of one log, puts the messages together, decodes
them and gives each to the subscriber of its kind. A frame that stands for no
message costs only itself. A chunk whose sender waits for it is acknowledged,
whatever became of its bytes.

What happens on the way is an ordered list of effects: the chunk handler's call,
what the stream found, then frame by frame the calls and refusals. What the chunk handler
changes holds for the messages of the chunk already.

Key definitions: `StreamConfig.interpret`, `Receiver`, `Receiver.ingest`, `Effect`.
-/
import FlightLink.Log.Codec
import FlightLink.Log.Registry
import FlightLink.Log.Stream

namespace FlightLink
namespace Log

/-- How the stream of a receiver is read. -/
structure StreamConfig where
  /-- Bytes in front of the first message. -/
  fileHeader : Nat
  /-- Leave out the kinds that old decoders do not know. -/
  legacyKinds : Bool
  deriving DecidableEq, Repr

/-- A log with a file header and all kinds. -/
def StreamConfig.standard : StreamConfig := ⟨fileHeaderLength, false⟩

/-- Kinds that old decoders do not know. -/
def Kind.newer : Kind → Bool
  | .removeLogged => true
  | .sync => true
  | _ => false

/-- Why a frame is no message for anybody. -/
inductive Skip where
  | unsupported (tag : UInt8) (size : Nat)
  | legacy (kind : Kind)
  | undecodable (kind : Kind) (fault : Fault)
  deriving DecidableEq, Repr

/-- What a receiver does besides changing its state. -/
inductive Effect (H : Type) where
  | chunkHandlerCalled (h : H) (chunk : Chunk)
  | found (chunk : Chunk) (diagnostic : Diagnostic)
  | handlerCalled (h : H) (m : Message)
  /-- The message was sent to a mailbox. -/
  | posted (number : Nat) (m : Message)
  | skipped (sequence : UInt16) (skip : Skip)
  | unclaimed (kind : Kind)
  deriving DecidableEq, Repr

/-- A receiver of one log. -/
structure Receiver (H : Type) [Reactive H] where
  config : StreamConfig
  stream : Stream
  registry : Registry H
  lastChunk : Option Chunk

/-- The message of a frame. -/
def StreamConfig.interpret (config : StreamConfig) (frame : Frame) : Except Skip Message :=
  match Kind.ofTag? frame.tag with
  | none => .error (.unsupported frame.tag frame.payload.length)
  | some kind =>
    if config.legacyKinds && kind.newer then .error (.legacy kind)
    else (Message.read kind frame.payload).mapError (.undecodable kind)

namespace Receiver

variable {H : Type} [Reactive H]

def new (config : StreamConfig) : Receiver H := ⟨config, .new config.fileHeader, .empty, none⟩

/-- Start over with the stream; the subscribers stay. -/
def reset (r : Receiver H) : Receiver H :=
  { r with stream := .new r.config.fileHeader, lastChunk := none }

/-- Change the registry. -/
def mapRegistry (r : Receiver H) (f : Registry H → Registry H) : Receiver H :=
  { r with registry := f r.registry }

/-- What a dispatched message leaves behind. -/
def dispatchEffects (m : Message) : Dispatch H → List (Effect H)
  | .called h => [.handlerCalled h m]
  | .posted number => [.posted number m]
  | .unmatched => []
  | .noSubscriber => [.unclaimed m.kind]

/-- A receiver in words. -/
def describe (r : Receiver H) : String :=
  let kinds := String.intercalate ", " (r.registry.subscribedKinds.map Kind.name)
  "LogStreamEngine \x7b config: StreamConfig \x7b file_header_len: " ++ toString r.config.fileHeader
    ++ ", legacy_kinds: " ++ toString r.config.legacyKinds
    ++ " \x7d, subscriptions: Subscriptions \x7b kinds: [" ++ kinds ++ "], .. \x7d, .. \x7d"

/-- Give a message to its subscriber, and tell whether there is one. -/
def dispatch (registry : Registry H) (m : Message) : Registry H × List (Effect H) × Bool :=
  let (registry, met) := registry.dispatch m
  (registry, dispatchEffects m met, met.delivered)

/-- Give the message of a frame to its subscriber. -/
def deliver (config : StreamConfig) (sequence : UInt16) (registry : Registry H) (frame : Frame) :
    Registry H × List (Effect H) :=
  match config.interpret frame with
  | .error skip => (registry, [.skipped sequence skip])
  | .ok m =>
    let (registry, effects, _) := dispatch registry m
    (registry, effects)

/-- Give the messages of frames to their subscribers, in order. -/
def deliverAll (config : StreamConfig) (sequence : UInt16) :
    Registry H → List Frame → Registry H × List (Effect H)
  | registry, [] => (registry, [])
  | registry, frame :: frames =>
    let (registry, first) := deliver config sequence registry frame
    let (registry, later) := deliverAll config sequence registry frames
    (registry, first ++ later)

/-- Take in a chunk. -/
def ingest (r : Receiver H) (chunk : Chunk) : Receiver H × List (Effect H) :=
  let (registry, looker) := r.registry.lookAt chunk
  let (stream, report) :=
    r.stream.ingest chunk.data chunk.firstMessageOffset (some chunk.sequence)
  let (registry, delivered) := deliverAll r.config chunk.sequence registry report.frames
  ({ r with stream, registry, lastChunk := some chunk },
    looker.toList.map (.chunkHandlerCalled · chunk) ++ report.diagnostics.map (.found chunk) ++
      delivered)

end Receiver

/-! ### Effects in the program's log -/

open Trace.Value in
/-- A skipped frame as a log record. -/
def Skip.record (sequence : UInt16) : Skip → Trace.Record
  | unsupported tag size =>
    ⟨.debug, "skipping unsupported log message",
      [("sequence", count sequence.toNat), ("kind", count tag.toNat), ("size", count size)]⟩
  | legacy kind =>
    ⟨.debug, "skipping log message in legacy mode",
      [("sequence", count sequence.toNat), ("kind", text kind.name)]⟩
  | undecodable kind fault =>
    ⟨.debug, "failed to decode log message",
      [("sequence", count sequence.toNat), ("kind", text kind.name),
        ("err", text fault.message)]⟩

/-- An effect as a log record. What the stream found is logged unless an observer
gets it; what subscribers get is not logged. -/
def Effect.record? {H : Type} (observed : Bool) : Effect H → Option Trace.Record
  | chunkHandlerCalled _ _ => none
  | found chunk diagnostic =>
    if observed then none else some (diagnostic.record chunk.sequence)
  | handlerCalled _ _ => none
  | posted _ _ => none
  | skipped sequence skip => some (skip.record sequence)
  | unclaimed kind => some ⟨.trace, "no subscriber for message", [("kind", .text kind.name)]⟩

end Log
end FlightLink
