/-
# How a clock is followed

The settings of the filter that follows a peer's clock, and its gains. The gains
say how much a new sample counts; over the first samples they go from their
initial to their final values along a sigmoid, and then stay.

Key definitions: `Settings`, `Settings.gains`.
-/

namespace FlightLink
namespace Clock

/-- Settings of probes and filter; times are in nanoseconds. -/
structure Settings where
  /-- Time between two probes. -/
  sendInterval : Nat := 5000000000
  /-- Samples of this round-trip time or more are not used. -/
  maxRtt : UInt64 := 10000000
  /-- So many unused samples in a row give a warning. -/
  maxHighRtt : Nat := 5
  /-- A converged estimate does not use samples further away than this. -/
  maxDeviation : UInt64 := 100000000
  /-- More than so many samples too far away in a row reset the estimate. -/
  maxHighDeviation : Nat := 5
  /-- Samples until the estimate has converged and the gains are final. -/
  window : Nat := 500
  alphaInitial : Float := 0.05
  betaInitial : Float := 0.05
  alphaFinal : Float := 0.003
  betaFinal : Float := 0.003
  deriving Repr

/-- The weights of a new sample in the offset and in the skew. -/
structure Gains where
  alpha : Float
  beta : Float
  deriving Repr

namespace Settings

/-- The part of the way from initial to final gains after `progress` of the window. -/
def sigmoid (progress : Float) : Float := 1.0 - Float.exp (0.5 * (1.0 - 1.0 / (1.0 - progress)))

/-- The gains after so many samples. -/
def gains (s : Settings) (sampleCount : Nat) : Gains :=
  if s.window ≤ sampleCount then ⟨s.alphaFinal, s.betaFinal⟩
  else
    let p := sigmoid (sampleCount.toFloat / s.window.toFloat)
    ⟨s.alphaInitial + p * (s.alphaFinal - s.alphaInitial),
      s.betaInitial + p * (s.betaFinal - s.betaInitial)⟩

end Settings

end Clock
end FlightLink
