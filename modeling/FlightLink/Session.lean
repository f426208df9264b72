/-
# One connection

A session is the two engines of a connection, the one that keeps the clocks in step
and the one that receives the log, and the rule which message goes to which. What
they do is an ordered list of effects, and what they send goes out in that order.

Key definitions: `Session`, `Session.handle`, `Session.work`, `Effect`.
-/
import FlightLink.Clock.Synchronizer
import FlightLink.Log.Receiver

namespace FlightLink

/-- The two engines of a connection. -/
structure Session (H : Type) [Log.Reactive H] where
  clock : Clock.Synchronizer
  log : Log.Receiver H

/-- What a session does besides changing its state. -/
inductive Effect (H : Type) where
  /-- A message from a sender is about to be handled. -/
  | handling (sender : Wire.Identity) (id : Wire.MessageId)
  | clock (e : Clock.Effect)
  | log (e : Log.Effect H)
  | acknowledge (ack : Wire.LogAck)
  deriving Repr

namespace Effect

variable {H : Type}

/-- The message that the effect sends. -/
def outgoing? : Effect H → Option Wire.Outbound
  | clock (.send m) => some m
  | acknowledge ack => some (.logAck ack)
  | _ => none

/-- The effect as a log record. -/
def record? (observed : Bool) : Effect H → Option Trace.Record
  | handling sender id =>
    some ⟨.trace, "handling message",
      [("msg_id", .count id.toNat), ("sender", .text sender.describe)]⟩
  | clock e => e.record? observed
  | log e => e.record? observed
  | acknowledge _ => none

end Effect

namespace Session

variable {H : Type} [Log.Reactive H]

def new (settings : Clock.Settings) (config : Log.StreamConfig) : Session H :=
  ⟨.new settings, .new config⟩

/-- Let the clock engine do something. -/
def onClock (s : Session H) (f : Clock.Synchronizer → Clock.Synchronizer × List Clock.Effect) :
    Session H × List (Effect H) :=
  let (clock, effects) := f s.clock
  ({ s with clock }, effects.map .clock)

/-- Work that is due from time to time. -/
def work (s : Session H) (clock : Clock.Manual) : Session H × List (Effect H) :=
  s.onClock (·.work clock.steady)

/-- Take in a chunk of the log. -/
def ingest (s : Session H) (chunk : Log.Chunk) : Session H × List (Effect H) :=
  let (log, effects) := s.log.ingest chunk
  ({ s with log }, effects.map .log)

/-- Take in a chunk of the log and acknowledge it if its sender waits for that. -/
def receive (s : Session H) (chunk : Log.Chunk) (reliable : Bool) :
    Session H × List (Effect H) :=
  let (s, effects) := s.ingest chunk
  (s, effects ++ (chunk.ack? reliable).toList.map .acknowledge)

/-- Give a message to the engine it is for. -/
def route (s : Session H) (clock : Clock.Manual) (sender : Wire.Identity) :
    Wire.Inbound → Session H × List (Effect H)
  | .systemTime m => s.onClock (·.onSystemTime clock m)
  | .timesync m => s.onClock (·.onTimesync clock.steady m)
  | .logData m => s.receive (.ofLogData sender m) false
  | .logDataAcked m => s.receive (.ofLogData sender m) true

/-- Handle a message from a sender. -/
def handle (s : Session H) (clock : Clock.Manual) (sender : Wire.Identity) (m : Wire.Inbound) :
    Session H × List (Effect H) :=
  let (s, effects) := s.route clock sender m
  (s, .handling sender m.id :: effects)

end Session

end FlightLink
