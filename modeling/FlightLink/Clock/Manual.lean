/-
# A clock that is set by hand

A node reads two times: steady time, which only its owner may turn back and by
which round trips are measured, and wall-clock time, which it tells peers that
have none. Here both are words that are advanced and set by hand.

Key definitions: `Manual`, `Manual.advance`, `Manual.setSteady`, `Manual.bootMs`.
-/

namespace FlightLink
namespace Clock

/-- The two times of a node. -/
structure Manual where
  /-- Steady time in nanoseconds. -/
  steady : UInt64
  /-- Wall-clock time in microseconds since 1970. -/
  unixUsec : UInt64
  deriving DecidableEq, Repr

namespace Manual

/-- Both times go on by `ns` nanoseconds, the wall clock by whole microseconds; past
the end of a word they start again at zero. -/
def advance (c : Manual) (ns : UInt64) : Manual := ⟨c.steady + ns, c.unixUsec + ns / 1000⟩

/-- Set the steady time. -/
def setSteady (c : Manual) (ns : UInt64) : Manual := { c with steady := ns }

/-- The steady time in milliseconds, as far as 32 bits go. -/
def bootMs (c : Manual) : UInt32 := UInt32.ofNat (min (c.steady.toNat / 1000000) (UInt32.size - 1))

end Manual

end Clock
end FlightLink
