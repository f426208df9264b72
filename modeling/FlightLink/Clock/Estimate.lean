/-
# The estimate of a peer's clock

A round trip gives a sample: how far the local clock is ahead of the peer's if both
ways took the same time, and how long the round trip took. The estimate smooths
the samples twice, once for the offset and once for its drift, so that a steady
drift leaves no lag. Samples that took too long are never used; once the estimate
has converged, samples far away from it are not used either, until there are so
many in a row that the peer's clock must have jumped: then it starts over.

Key definitions: `Sample.ofRoundTrip`, `Estimate`, `Estimate.observe`,
`Estimate.toRemote`, `Estimate.toLocal`.
-/
import FlightLink.Clock.Settings

namespace FlightLink
namespace Clock

/-! ### Samples -/

/-- What a round trip tells, in nanoseconds. -/
structure Sample where
  /-- Local minus remote time. -/
  offset : Int64
  rtt : UInt64
  deriving DecidableEq, Repr

namespace Sample

/-- The nearest signed word. -/
def clamp (n : Int) : Int64 :=
  Int64.ofInt (max Int64.minValue.toInt (min Int64.maxValue.toInt n))

/-- The round-trip time that no settings accept. -/
def endless : UInt64 := UInt64.ofNat (UInt64.size - 1)

/-- The sample of a probe sent at local time `ts1`, answered at remote time `tc1`, and
back at local time `now`. A probe that claims to be sent before time zero or in the
future took forever. -/
def ofRoundTrip (tc1 ts1 : Int64) (now : UInt64) : Sample where
  offset := clamp ((ts1.toInt + now.toNat - 2 * tc1.toInt).tdiv 2)
  rtt :=
    if 0 ≤ ts1.toInt ∧ ts1.toInt ≤ now.toNat then UInt64.ofNat (now.toNat - ts1.toInt.toNat)
    else endless

/-- The offset as it enters the estimate, rounded to the nearest float. -/
def raw (sample : Sample) : Float := Float.ofInt sample.offset.toInt

end Sample

/-! ### Estimates -/

/-- What is known of a peer's clock. -/
structure Estimate where
  /-- Local minus remote time, in nanoseconds. -/
  offset : Float
  /-- Change of the offset from sample to sample. -/
  skew : Float
  /-- Samples used since the start. -/
  sampleCount : Nat
  gains : Gains
  /-- Samples in a row that took too long, since the last warning. -/
  highRtt : Nat
  /-- Samples in a row that were too far away. -/
  highDeviation : Nat
  deriving Repr

/-- What became of a sample. -/
inductive Outcome where
  | accepted
  /-- It took too long; `warn` after so many in a row. -/
  | highRtt (rtt : UInt64) (warn : Bool)
  /-- It was too far away. -/
  | highDeviation (deviation : UInt64)
  /-- One too many was too far away, and the estimate started over. -/
  | reset (deviation : UInt64)
  deriving DecidableEq, Repr

namespace Estimate

/-- The number at which the sample count stays. -/
def maxSampleCount : Nat := UInt32.size - 1

/-- The next number of a counter, which is a word of 32 bits. -/
def countUp (n : Nat) : Nat := (n + 1) % UInt32.size

/-- Nothing is known. -/
def new (s : Settings) : Estimate := ⟨0.0, 0.0, 0, s.gains 0, 0, 0⟩

/-- The window is full. -/
def converged (s : Settings) (e : Estimate) : Bool := s.window ≤ e.sampleCount

/-- How far a sample is from the estimate, in whole nanoseconds. -/
def deviation (e : Estimate) (sample : Sample) : UInt64 :=
  (e.offset - sample.raw).abs.toUInt64

/-- Offset and skew after a sample. The first one is taken as it is. -/
def smooth (s : Settings) (e : Estimate) (raw : Float) : Float × Float :=
  if e.sampleCount = 0 then (raw, 0.0)
  else
    let g := s.gains e.sampleCount
    let offset := g.alpha * raw + (1.0 - g.alpha) * (e.offset + e.skew)
    (offset, g.beta * (offset - e.offset) + (1.0 - g.beta) * e.skew)

/-- The estimate with a sample used. -/
def update (s : Settings) (e : Estimate) (sample : Sample) : Estimate :=
  let (offset, skew) := e.smooth s sample.raw
  let sampleCount := min (e.sampleCount + 1) maxSampleCount
  ⟨offset, skew, sampleCount, s.gains sampleCount, 0, 0⟩

/-- Count a sample that took too long. -/
def countHighRtt (s : Settings) (e : Estimate) (sample : Sample) : Estimate × Outcome :=
  let highRtt := countUp e.highRtt
  let warn := decide (s.maxHighRtt ≤ highRtt)
  ({ e with highRtt := if warn then 0 else highRtt }, .highRtt sample.rtt warn)

/-- Count a sample that was too far away. -/
def countHighDeviation (s : Settings) (e : Estimate) (sample : Sample) : Estimate × Outcome :=
  let highDeviation := countUp e.highDeviation
  if s.maxHighDeviation < highDeviation then (new s, .reset (e.deviation sample))
  else ({ e with highDeviation }, .highDeviation (e.deviation sample))

/-- Use a sample, or not. -/
def observe (s : Settings) (e : Estimate) (sample : Sample) : Estimate × Outcome :=
  if s.maxRtt ≤ sample.rtt then e.countHighRtt s sample
  else if e.converged s && s.maxDeviation < e.deviation sample then e.countHighDeviation s sample
  else (e.update s sample, .accepted)

/-- Below its last number a counter goes on to the next one. -/
theorem countUp_of_lt {n : Nat} (h : n + 1 < UInt32.size) : countUp n = n + 1 := Nat.mod_eq_of_lt h

/-! ### Translating times -/

/-- A time moved by a whole number of nanoseconds, and kept within a word. -/
def shift (ns : UInt64) (delta : Float) : UInt64 := (ns.toFloat + delta.round).toUInt64

/-- Remote minus local time. -/
def remoteMinusLocal (e : Estimate) : Float := -e.offset

/-- The remote time at a local time. -/
def toRemote (e : Estimate) (localNs : UInt64) : UInt64 := shift localNs (-e.offset)

/-- The local time at a remote time. -/
def toLocal (e : Estimate) (remoteNs : UInt64) : UInt64 := shift remoteNs e.offset

end Estimate

end Clock
end FlightLink
