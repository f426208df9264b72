/-
# Keeping clocks in step

Each of two peers sends probes and answers those of the other, so that both know
how far their clocks are apart. A probe goes out when the link is active and the
last one is long enough ago. A message with `tc1` zero is a probe and is answered;
any other answers one of ours and gives a sample, unless its remote time is
negative. A peer that broadcasts an impossible wall-clock time is told ours.

Key definitions: `Synchronizer`, `Synchronizer.work`, `Synchronizer.onTimesync`,
`Synchronizer.onSystemTime`, `Event`, `Effect`.
-/
import FlightLink.Clock.Estimate
import FlightLink.Clock.Manual
import FlightLink.Trace
import FlightLink.Wire.Traffic

namespace FlightLink
namespace Clock

/-- What happened while clocks were compared. -/
inductive Event where
  | probeSent (ts1 : UInt64)
  | probeAnswered (ts1 : Int64)
  | sampleAccepted (offset skew : Float) (sampleCount : Nat)
  /-- A sample took too long. -/
  | sampleRejected (rtt : UInt64)
  /-- Too many samples in a row took too long. -/
  | highRtt (rtt : UInt64)
  | highDeviation (deviation : UInt64)
  /-- The remote clock jumped, and the estimate started over. -/
  | timeJump (deviation : UInt64)
  | remoteClockValid (unixUsec : UInt64)
  /-- The remote wall clock cannot be right; ours was sent. -/
  | invalidRemoteClock (unixUsec : UInt64)
  deriving Repr

/-- What a synchronizer does besides changing its state. -/
inductive Effect where
  | send (m : Wire.Outbound)
  | event (e : Event)
  /-- A message with a negative remote time was left alone. -/
  | ignored (tc1 : Int64)
  deriving Repr

/-- One end of a synchronised link. -/
structure Synchronizer where
  settings : Settings
  linkActive : Bool
  estimate : Estimate
  /-- The steady time of the last probe. -/
  lastProbe : Option UInt64
  deriving Repr

/-- A steady time as a probe carries it. -/
def stamp (now : UInt64) : Int64 := Sample.clamp now.toNat

/-- The event of a sample, given the estimate after it. -/
def Event.ofOutcome (estimate : Estimate) : Outcome → Event
  | .accepted => sampleAccepted estimate.offset estimate.skew estimate.sampleCount
  | .highRtt rtt true => highRtt rtt
  | .highRtt rtt false => sampleRejected rtt
  | .highDeviation deviation => highDeviation deviation
  | .reset deviation => timeJump deviation

namespace Synchronizer

def new (settings : Settings) : Synchronizer := ⟨settings, false, .new settings, none⟩

/-- Probes are only sent while the link is active. -/
def setLink (s : Synchronizer) (active : Bool) : Synchronizer := { s with linkActive := active }

/-- Forget the samples. -/
def reset (s : Synchronizer) : Synchronizer := { s with estimate := .new s.settings }

def converged (s : Synchronizer) : Bool := s.estimate.converged s.settings

/-- The time between two probes, as far as a word goes. -/
def interval (s : Synchronizer) : Nat := min s.settings.sendInterval (UInt64.size - 1)

/-- A probe is due: none was sent yet, or the last one is long enough ago. Where the
clock was turned back, no time has passed. -/
def probeDue (s : Synchronizer) (now : UInt64) : Bool :=
  match s.lastProbe with
  | none => true
  | some last => s.interval ≤ now.toNat - last.toNat

/-- Send a probe if one is due. -/
def work (s : Synchronizer) (now : UInt64) : Synchronizer × List Effect :=
  if s.linkActive && s.probeDue now then
    ({ s with lastProbe := some now },
      [.send (.timesync ⟨0, stamp now⟩), .event (.probeSent now)])
  else (s, [])

/-- Take in the wall-clock time of the peer. -/
def onSystemTime (s : Synchronizer) (clock : Manual) (m : Wire.SystemTime) :
    Synchronizer × List Effect :=
  if m.valid then (s, [.event (.remoteClockValid m.unixUsec)])
  else
    (s, [.send (.systemTime ⟨clock.unixUsec, clock.bootMs⟩),
      .event (.invalidRemoteClock m.unixUsec)])

/-- Answer a probe, or use the answer to one of ours. -/
def onTimesync (s : Synchronizer) (now : UInt64) (m : Wire.Timesync) :
    Synchronizer × List Effect :=
  if m.isRequest then
    (s, [.send (.timesync ⟨stamp now, m.ts1⟩), .event (.probeAnswered m.ts1)])
  else if m.tc1 < 0 then (s, [.ignored m.tc1])
  else
    let (estimate, outcome) := s.estimate.observe s.settings (.ofRoundTrip m.tc1 m.ts1 now)
    ({ s with estimate }, [.event (.ofOutcome estimate outcome)])

end Synchronizer

/-! ### Events and effects in the program's log -/

namespace Event

def name : Event → String
  | probeSent _ => "ProbeSent"
  | probeAnswered _ => "ProbeAnswered"
  | sampleAccepted _ _ _ => "SampleAccepted"
  | sampleRejected _ => "SampleRejected"
  | highRtt _ => "HighRtt"
  | highDeviation _ => "HighDeviation"
  | timeJump _ => "TimeJump"
  | remoteClockValid _ => "RemoteClockValid"
  | invalidRemoteClock _ => "InvalidRemoteClock"

/-- Nanoseconds as milliseconds. -/
def milliseconds (ns : UInt64) : Trace.Value := .real (ns.toFloat / 1e6)

open Trace.Value in
/-- The event as a log record. -/
def record (event : Event) : Trace.Record :=
  match event with
  | highRtt rtt => ⟨.warn, "RTT too high for timesync", [("rtt_ms", milliseconds rtt)]⟩
  | timeJump deviation =>
    ⟨.warn, "time jump detected, resetting time synchronizer",
      [("deviation_ms", milliseconds deviation)]⟩
  | invalidRemoteClock unixUsec =>
    ⟨.warn, "wrong remote system time, sending ours", [("unix_usec", count unixUsec.toNat)]⟩
  | remoteClockValid unixUsec =>
    ⟨.debug, "remote system time received", [("unix_usec", count unixUsec.toNat)]⟩
  | highDeviation deviation =>
    ⟨.debug, "timesync sample deviates from estimate",
      [("deviation_ns", count deviation.toNat)]⟩
  | _ => ⟨.trace, "timesync", [("event", text event.name)]⟩

end Event

/-- An effect as a log record. Events are logged unless an observer gets them. -/
def Effect.record? (observed : Bool) : Effect → Option Trace.Record
  | send _ => none
  | event e => if observed then none else some e.record
  | ignored tc1 =>
    some ⟨.debug, "ignoring timesync with negative remote timestamp",
      [("tc1", .number tc1.toInt)]⟩

end Clock
end FlightLink
