/-
# Only prompt answers and resets reach the estimate

Two runs are compared: all calls, and only those that bear on the estimate, each made when the
clock shows the same. A reset bears on it, and so does an answer to a probe whose remote time is
positive and whose round trip began at a time that was, and ended soon enough (`Moment.bears`).
Probes, wall-clock times and slow answers leave no trace in the second run, and none in the
first either, but for the counter of slow samples.

So the relation of the two runs is equality up to this counter (`Estimate.Alike`). It is kept
because the counter never enters a decision: it only says when to warn (`Alike.observe`).

Key definitions: `Moment.bears`, `Estimate.Alike`.
Key theorems: `Sample.rtt_lt_iff`, `Moment.bears_iff`, `Estimate.Alike.observe`,
`Estimate.Alike.run`, `Synchronizer.estimate_noninterference`.
-/
import FlightLink.Proofs.Clock.Run

namespace FlightLink
namespace Clock

/-! ### Calls that bear on the estimate -/

/-- The call can change the estimate: a reset, or an answer to a probe that was sent at a time
that was, and that came back before the round trip took too long. -/
def Moment.bears (s : Settings) (t : Moment) : Bool :=
  match t.call with
  | .timesync m =>
    decide (0 < m.tc1.toInt ∧ 0 ≤ m.ts1.toInt ∧ m.ts1.toInt ≤ t.clock.steady.toNat ∧
      t.clock.steady.toNat - m.ts1.toInt < s.maxRtt.toNat)
  | .reset => true
  | .systemTime _ => false
  | .work => false
  | .setLink _ => false

/-- A round trip is short enough only if it began at a time that was. -/
theorem Sample.rtt_lt_iff (tc1 ts1 : Int64) (now limit : UInt64) :
    (Sample.ofRoundTrip tc1 ts1 now).rtt < limit ↔
      0 ≤ ts1.toInt ∧ ts1.toInt ≤ now.toNat ∧ now.toNat - ts1.toInt < limit.toNat := by
  have hlimit : limit.toNat < UInt64.size := limit.toNat_lt
  have hnow : now.toNat < UInt64.size := now.toNat_lt
  have hsize : UInt64.size = 18446744073709551616 := rfl
  rw [UInt64.lt_iff_toNat_lt]
  by_cases hts : 0 ≤ ts1.toInt ∧ ts1.toInt ≤ now.toNat
  · have hrtt : (Sample.ofRoundTrip tc1 ts1 now).rtt.toNat = now.toNat - ts1.toInt.toNat := by
      show (if _ then _ else endless).toNat = _
      rw [if_pos hts, UInt64.toNat_ofNat_of_lt' (by omega)]
    rw [hrtt]
    omega
  · have hrtt : (Sample.ofRoundTrip tc1 ts1 now).rtt.toNat = UInt64.size - 1 := by
      show (if _ then _ else endless).toNat = _
      rw [if_neg hts]
      rfl
    rw [hrtt]
    omega

/-- A message is an answer if its remote time is positive. -/
theorem isAnswer_iff (m : Wire.Timesync) :
    (m.isRequest || decide (m.tc1 < 0)) = false ↔ 0 < m.tc1.toInt := by
  rw [Bool.or_eq_false_iff, Wire.Timesync.isRequest, beq_eq_false_iff_ne, decide_eq_false_iff_not,
    ne_eq, ← Int64.toInt_inj, Int64.lt_iff_toInt_lt, Int64.toInt_zero]
  omega

/-- What bears on the estimate are resets and samples that were prompt. -/
theorem Moment.bears_iff (s : Settings) (t : Moment) :
    t.bears s = true ↔
      t.call = .reset ∨ ∃ sample, t.sample? = some sample ∧ sample.rtt < s.maxRtt := by
  obtain ⟨clock, call⟩ := t
  cases call with
  | timesync m =>
    simp only [bears, sample?, decide_eq_true_eq, reduceCtorEq, false_or]
    by_cases h : 0 < m.tc1.toInt
    · simp [(isAnswer_iff m).mpr h, h, Sample.rtt_lt_iff]
    · have hnone : (m.isRequest || decide (m.tc1 < 0)) = true :=
        Bool.not_eq_false _ ▸ mt (isAnswer_iff m).mp h
      simp [hnone, h]
  | systemTime | work | setLink => simp [bears, sample?]
  | reset => simp [bears]

/-! ### Estimates that differ in the count of slow samples -/

namespace Estimate

/-- The estimates are the same but for the counter of slow samples. -/
def Alike (e f : Estimate) : Prop := ∃ highRtt, f = { e with highRtt }

namespace Alike

variable {s : Settings} {e f : Estimate}

theorem refl (e : Estimate) : e.Alike e := ⟨e.highRtt, rfl⟩

/-- **The counter of slow samples enters no decision**: the same sample is used by both
estimates or by none, and leaves them alike. -/
theorem observe (h : e.Alike f) (sample : Sample) :
    (e.observe s sample).1.Alike (f.observe s sample).1 := by
  obtain ⟨highRtt, rfl⟩ := h
  unfold Estimate.observe
  by_cases hr : s.maxRtt ≤ sample.rtt
  · rw [if_pos hr, if_pos hr]
    exact ⟨_, rfl⟩
  · rw [if_neg hr, if_neg hr]
    by_cases hd : (e.converged s && decide (s.maxDeviation < e.deviation sample)) = true
    · -- convergence and deviation are those of `e`, whatever the counter
      have hf : (({ e with highRtt } : Estimate).converged s &&
          decide (s.maxDeviation < ({ e with highRtt } : Estimate).deviation sample)) = true := hd
      rw [if_pos hd, if_pos hf]
      by_cases hmax : s.maxHighDeviation < countUp e.highDeviation
      · simp only [countHighDeviation, if_pos hmax]
        exact refl _
      · simp only [countHighDeviation, if_neg hmax]
        exact ⟨highRtt, rfl⟩
    · have hf : ¬ (({ e with highRtt } : Estimate).converged s &&
          decide (s.maxDeviation < ({ e with highRtt } : Estimate).deviation sample)) = true := hd
      rw [if_neg hd, if_neg hf]
      exact refl _

/-- A slow sample moves nothing but the counter. -/
theorem late (h : e.Alike f) {sample : Sample} (hr : s.maxRtt ≤ sample.rtt) :
    (e.observe s sample).1.Alike f := by
  obtain ⟨highRtt, rfl⟩ := h
  unfold Estimate.observe
  rw [if_pos hr]
  exact ⟨highRtt, rfl⟩

/-! ### Runs -/

variable {n m : Synchronizer} {t : Moment}

/-- A call that bears on the estimate does the same in both runs. -/
theorem perform (h : n.estimate.Alike m.estimate) (hs : n.settings = m.settings)
    (hb : t.bears s = true) : (n.perform t).1.estimate.Alike (m.perform t).1.estimate := by
  rcases (t.bears_iff s).mp hb with hr | ⟨sample, hsample, -⟩
  · rw [n.perform_reset hr, m.perform_reset hr]
    show Alike (.new n.settings) (.new m.settings)
    rw [hs]
    exact refl _
  · rw [n.perform_sample hsample, m.perform_sample hsample]
    show Alike (n.estimate.observe n.settings sample).1 (m.estimate.observe m.settings sample).1
    rw [← hs]
    exact h.observe sample

/-- Any other call does nothing that the second run would miss. -/
theorem skip (h : n.estimate.Alike f) (hb : t.bears n.settings = false) :
    (n.perform t).1.estimate.Alike f := by
  have hnot := mt (t.bears_iff n.settings).mpr (by simp [hb])
  rw [not_or] at hnot
  cases hsample : t.sample? with
  | some sample =>
    rw [n.perform_sample hsample]
    apply h.late
    apply UInt64.not_lt.mp
    intro hlt
    exact hnot.2 ⟨sample, hsample, hlt⟩
  | none =>
    rw [(n.perform_aside hsample hnot.1).2.1]
    exact h

/-- **Calls without bearing can be left out of a run.** -/
theorem run (h : n.estimate.Alike m.estimate) (hn : n.settings = s) (hm : m.settings = s)
    (ts : List Moment) :
    (n.after ts).estimate.Alike (m.after (ts.filter fun t => t.bears s)).estimate := by
  induction ts generalizing n m with
  | nil => exact h
  | cons t ts ih =>
    have hnext : (n.perform t).1.settings = s := (n.settings_perform t).trans hn
    cases hb : t.bears s with
    | true =>
      rw [List.filter_cons_of_pos hb]
      apply ih _ hnext
      · exact (m.settings_perform t).trans hm
      · exact h.perform (hn.trans hm.symm) hb
    | false =>
      rw [List.filter_cons_of_neg (by simp [hb])]
      apply ih _ hnext hm
      apply h.skip
      rwa [hn]

end Alike

end Estimate

/-- **Nothing but prompt answers and resets influences the estimate.** A run ends with the same
offset, skew, sample count, gains and count of deviating samples as the run of only those calls
that bear on the estimate, each made when the clock shows the same. -/
theorem Synchronizer.estimate_noninterference (settings : Settings) (ts : List Moment) :
    let all := ((new settings).after ts).estimate
    let bearing := ((new settings).after (ts.filter fun t => t.bears settings)).estimate
    all.offset = bearing.offset ∧ all.skew = bearing.skew ∧
      all.sampleCount = bearing.sampleCount ∧ all.gains = bearing.gains ∧
      all.highDeviation = bearing.highDeviation := by
  intro all bearing
  have h : all.Alike bearing := (Estimate.Alike.refl (.new settings)).run rfl rfl ts
  obtain ⟨highRtt, heq⟩ := h
  rw [heq]
  exact ⟨rfl, rfl, rfl, rfl, rfl⟩

end Clock
end FlightLink
