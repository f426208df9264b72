/-
# One call of a synchronizer after another

A run is a list of calls in any order. Between two calls the clock may go on, be set or be
turned back, so each call comes with what the clock shows when it is made (`Moment`). For the
estimate there are three kinds of moment: one that brings a sample, a reset, and all others,
which leave it alone (`Synchronizer.perform_sample`, `perform_reset`, `perform_aside`).

Key definitions: `Call`, `Moment`, `Moment.sample?`, `Synchronizer.perform`,
`Synchronizer.after`, `Entry`, `Synchronizer.trace`.
Key theorems: `Synchronizer.perform_sample`, `Synchronizer.perform_aside`,
`Synchronizer.timesync_onTimesync`, `Synchronizer.timesync_perform`,
`Synchronizer.settings_after`.
-/
import FlightLink.Clock.Synchronizer

namespace FlightLink
namespace Clock

/-- What can be asked of a synchronizer. -/
inductive Call where
  | timesync (m : Wire.Timesync)
  | systemTime (m : Wire.SystemTime)
  | work
  | setLink (active : Bool)
  | reset
  deriving DecidableEq, Repr

/-- A call, and what the clock shows when it is made. -/
structure Moment where
  clock : Manual
  call : Call
  deriving DecidableEq, Repr

/-- The sample that the moment brings: one for every answer to a probe. -/
def Moment.sample? (t : Moment) : Option Sample :=
  match t.call with
  | .timesync m =>
    if m.isRequest || decide (m.tc1 < 0) then none
    else some (.ofRoundTrip m.tc1 m.ts1 t.clock.steady)
  | _ => none

/-! ### What an event tells of a sample -/

namespace Event

/-- A sample was used. -/
def accepts : Event → Bool
  | sampleAccepted _ _ _ => true
  | _ => false

/-- A sample was not used. -/
def rejects : Event → Bool
  | sampleRejected _ => true
  | highRtt _ => true
  | highDeviation _ => true
  | _ => false

/-- The estimate started over. -/
def jumps : Event → Bool
  | timeJump _ => true
  | _ => false

end Event

/-- Nothing is told of a sample. -/
def Effect.aside : Effect → Bool
  | event e => !e.accepts && !e.rejects && !e.jumps
  | _ => true

/-- The timesync message that an effect sends. -/
def Effect.timesync? : Effect → Option Wire.Timesync
  | send (.timesync m) => some m
  | _ => none

/-- One line in the history of a synchronizer: a call, or what came of it. -/
inductive Entry where
  | called (call : Call)
  | did (effect : Effect)
  deriving Repr

/-- A time is stamped as it is, as far as a signed word goes. -/
theorem toInt_stamp (now : UInt64) :
    (stamp now).toInt = min (now.toNat : Int) Int64.maxValue.toInt := by
  have hmax : Int64.maxValue.toInt = 2 ^ 63 - 1 := rfl
  have hmin : Int64.minValue.toInt = -2 ^ 63 := rfl
  rw [stamp, Sample.clamp, Int64.toInt_ofInt_of_le (by omega) (by omega)]
  omega

/-- A time is stamped as zero only if it is zero. -/
theorem stamp_eq_zero_iff (now : UInt64) : stamp now = 0 ↔ now = 0 := by
  rw [← Int64.toInt_inj, ← UInt64.toNat_inj, toInt_stamp]
  show min _ (2 ^ 63 - 1) = (0 : Int) ↔ _ = 0
  omega

namespace Synchronizer

/-- What a synchronizer does at a moment. -/
def perform (s : Synchronizer) (t : Moment) : Synchronizer × List Effect :=
  match t.call with
  | .timesync m => s.onTimesync t.clock.steady m
  | .systemTime m => s.onSystemTime t.clock m
  | .work => s.work t.clock.steady
  | .setLink active => (s.setLink active, [])
  | .reset => (s.reset, [])

/-- The synchronizer after calls. -/
def after (s : Synchronizer) : List Moment → Synchronizer
  | [] => s
  | t :: ts => (s.perform t).1.after ts

/-- The history of calls: each call, followed by what came of it. -/
def trace (s : Synchronizer) : List Moment → List Entry
  | [] => []
  | t :: ts => .called t.call :: ((s.perform t).2.map .did ++ (s.perform t).1.trace ts)

/-! ### One moment -/

variable (s : Synchronizer) {t : Moment}

/-- A sample is offered to the estimate, and an event tells what became of it. -/
theorem perform_sample {sample : Sample} (h : t.sample? = some sample) :
    s.perform t =
      ({ s with estimate := (s.estimate.observe s.settings sample).1 },
        [.event (.ofOutcome (s.estimate.observe s.settings sample).1
          (s.estimate.observe s.settings sample).2)]) := by
  obtain ⟨clock, call⟩ := t
  cases call with
  | timesync m =>
    simp only [Moment.sample?] at h
    split at h
    · cases h
    · rename_i hm
      simp only [Bool.or_eq_true, decide_eq_true_eq, not_or] at hm
      cases h
      show s.onTimesync clock.steady m = _
      rw [onTimesync, if_neg hm.1, if_neg hm.2]
  | systemTime | work | setLink | reset => cases h

theorem perform_reset (h : t.call = .reset) : s.perform t = (s.reset, []) := by
  simp only [perform, h]

/-- Without a sample and without a reset the estimate stays, and nothing is told of it. -/
theorem perform_aside (h : t.sample? = none) (hr : t.call ≠ .reset) :
    (s.perform t).1.settings = s.settings ∧ (s.perform t).1.estimate = s.estimate ∧
      ∀ e ∈ (s.perform t).2, e.aside = true := by
  obtain ⟨clock, call⟩ := t
  cases call with
  | timesync m =>
    simp only [perform, onTimesync]
    by_cases hq : m.isRequest = true
    · simp [hq, Effect.aside, Event.accepts, Event.rejects, Event.jumps]
    · by_cases hn : m.tc1 < 0
      · simp [hq, hn, Effect.aside]
      · simp [Moment.sample?, hq, hn] at h
  | systemTime m =>
    simp only [perform, onSystemTime]
    split <;> simp [Effect.aside, Event.accepts, Event.rejects, Event.jumps]
  | work =>
    simp only [perform, work]
    split <;> simp [Effect.aside, Event.accepts, Event.rejects, Event.jumps]
  | setLink active => simp [perform, setLink]
  | reset => exact absurd rfl hr

theorem settings_perform (t : Moment) : (s.perform t).1.settings = s.settings := by
  cases h : t.sample? with
  | some sample => rw [perform_sample s h]
  | none =>
    by_cases hr : t.call = .reset
    · rw [perform_reset s hr]
      rfl
    · exact (perform_aside s h hr).1

/-! ### What a call sends -/

/-- A received message makes a synchronizer send at most the answer to it. -/
theorem timesync_onTimesync (now : UInt64) (m : Wire.Timesync) :
    (s.onTimesync now m).2.filterMap Effect.timesync? =
      if m.isRequest then [⟨stamp now, m.ts1⟩] else [] := by
  unfold onTimesync
  by_cases hq : m.isRequest = true
  · rw [if_pos hq, if_pos hq]
    rfl
  · rw [if_neg hq, if_neg hq]
    by_cases hn : m.tc1 < 0
    · rw [if_pos hn]
      rfl
    · rw [if_neg hn]
      rfl

/-- Any other call sends at most a probe, and only a call for work does. -/
theorem timesync_perform (h : ∀ m, t.call ≠ .timesync m) {m : Wire.Timesync}
    (hm : m ∈ (s.perform t).2.filterMap Effect.timesync?) :
    t.call = .work ∧ m = ⟨0, stamp t.clock.steady⟩ := by
  obtain ⟨clock, call⟩ := t
  cases call with
  | timesync m => exact absurd rfl (h m)
  | systemTime broadcast =>
    simp only [perform, onSystemTime] at hm
    split at hm
    · cases hm
    · cases hm
  | work =>
    simp only [perform, work] at hm
    split at hm
    · cases List.mem_singleton.mp hm
      exact ⟨rfl, rfl⟩
    · cases hm
  | setLink | reset => cases hm

/-! ### Runs -/

theorem settings_after (ts : List Moment) : (s.after ts).settings = s.settings := by
  induction ts generalizing s with
  | nil => rfl
  | cons t ts ih => exact (ih _).trans (s.settings_perform t)

end Synchronizer

end Clock
end FlightLink
