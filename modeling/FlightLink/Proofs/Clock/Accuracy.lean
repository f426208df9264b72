/-
# How wrong a used sample can be

A sample takes both ways of a round trip for equally long. The remote clock is read somewhere
between sending and getting back, and its true offset is what a reading at that instant shows. So
the sample is off by the distance of this instant from the middle, which is half the round trip at
most, however the ways share it (`Sample.offset_error_le`); cutting the half off and keeping to a
signed word bring the sample no further away.

A used sample has a round trip shorter than the settings allow, and the one of a probe that was
sent before time zero or in the future is longer than any settings allow (`Sample.accurate`).

Key theorems: `Sample.clamp_error_le`, `Sample.offset_error_le`, `Estimate.Observed.highRtt_iff`,
`Sample.accurate`.
-/
import FlightLink.Proofs.Clock.Counting
import FlightLink.Proofs.Clock.Noninterference

namespace FlightLink
namespace Clock

namespace Sample

/-! ### The offset -/

theorem toInt_clamp (n : Int) :
    (clamp n).toInt = max Int64.minValue.toInt (min Int64.maxValue.toInt n) := by
  have hmin : Int64.minValue.toInt = -9223372036854775808 := rfl
  have hmax : Int64.maxValue.toInt = 9223372036854775807 := rfl
  rw [clamp, Int64.toInt_ofInt_of_le (by omega) (by omega)]

/-- Keeping a number to a word brings it no further away from any word. -/
theorem clamp_error_le (n : Int) (w : Int64) :
    ((clamp n).toInt - w.toInt).natAbs ≤ (n - w.toInt).natAbs := by
  have hlow := w.minValue_le_toInt
  have hhigh := w.toInt_le
  rw [toInt_clamp]
  omega

/-- The half of a number, cut towards zero, is half a unit away from it at most. -/
theorem half_error_le {n middle : Int} {spread : Nat} (h : (n - 2 * middle).natAbs ≤ spread) :
    (n.tdiv 2 - middle).natAbs ≤ (spread + 1) / 2 := by
  rw [Int.tdiv_eq_ediv]
  split
  · omega
  · rw [show Int.sign 2 = 1 from rfl]
    omega

/-- **The offset of a sample is wrong by half the round trip at most**, if the remote clock was
read at some instant of it. -/
theorem offset_error_le {tc1 ts1 offset : Int64} {now : UInt64} {instant : Int}
    (hsent : ts1.toInt ≤ instant) (hback : instant ≤ now.toNat)
    (hanswer : tc1.toInt = instant - offset.toInt) :
    ((ofRoundTrip tc1 ts1 now).offset.toInt - offset.toInt).natAbs ≤
      ((now.toNat - ts1.toInt).toNat + 1) / 2 := by
  have hmiddle : (ts1.toInt + now.toNat - 2 * tc1.toInt - 2 * offset.toInt).natAbs ≤
      (now.toNat - ts1.toInt).toNat := by
    omega
  exact Nat.le_trans (clamp_error_le _ offset) (half_error_le hmiddle)

/-! ### The round trip -/

/-- A round trip takes the time from sending to getting back. -/
theorem rtt_ofRoundTrip {ts1 : Int64} {now : UInt64} (tc1 : Int64) (h0 : 0 ≤ ts1.toInt)
    (hnow : ts1.toInt ≤ now.toNat) :
    (ofRoundTrip tc1 ts1 now).rtt.toNat = (now.toNat - ts1.toInt).toNat := by
  have hlt : now.toNat < UInt64.size := now.toNat_lt
  show (if _ then _ else endless).toNat = _
  rw [if_pos ⟨h0, hnow⟩, UInt64.toNat_ofNat_of_lt' (by omega)]
  omega

/-- The round trip of a probe that cannot have been sent never ends. -/
theorem rtt_ofRoundTrip_endless {ts1 : Int64} {now : UInt64} (tc1 : Int64)
    (h : ts1.toInt < 0 ∨ now.toNat < ts1.toInt) : (ofRoundTrip tc1 ts1 now).rtt = endless :=
  if_neg (by omega)

theorem le_endless (limit : UInt64) : limit ≤ endless := by
  have hlt : limit.toNat < UInt64.size := limit.toNat_lt
  rw [UInt64.le_iff_toNat_le]
  exact Nat.le_sub_one_of_lt hlt

end Sample

/-- A sample takes too long exactly if its round trip is not below the limit. -/
theorem Estimate.Observed.highRtt_iff {s : Settings} {e : Estimate} {sample : Sample}
    {result : Estimate × Outcome} (ho : e.Observed s sample result) :
    (∃ rtt warn, result.2 = .highRtt rtt warn) ↔ s.maxRtt ≤ sample.rtt := by
  cases ho with
  | highRtt warn hle => exact ⟨fun _ => hle, fun _ => ⟨sample.rtt, warn, rfl⟩⟩
  | highDeviation hlt | reset hlt | accepted hlt =>
    constructor
    · rintro ⟨_, _, ho⟩
      cases ho
    · intro hle
      exact absurd hlt (UInt64.not_lt.mpr hle)

/-- **What is used of a round trip is wrong by half of it at most.** Let the remote clock be read
at any instant between sending and getting back, when it is behind the local one by `offset`. If
the sample does not take too long, the probe was sent at a time that was, the round trip took the
time since and less than the limit, and the sample is wrong by half of it at most. A probe sent
before time zero or in the future takes too long whatever the settings. -/
theorem Sample.accurate (s : Settings) (e : Estimate) (tc1 ts1 : Int64) (now : UInt64) :
    let sample := Sample.ofRoundTrip tc1 ts1 now
    (∀ (offset : Int64) (instant : Int), ts1.toInt ≤ instant → instant ≤ now.toNat →
      tc1.toInt = instant - offset.toInt →
      (∀ rtt warn, (e.observe s sample).2 ≠ .highRtt rtt warn) →
        0 ≤ ts1.toInt ∧ ts1.toInt ≤ now.toNat ∧
          (sample.rtt.toNat : Int) = now.toNat - ts1.toInt ∧ sample.rtt < s.maxRtt ∧
          (sample.offset.toInt - offset.toInt).natAbs ≤ (sample.rtt.toNat + 1) / 2 ∧
          (sample.rtt.toNat + 1) / 2 ≤ s.maxRtt.toNat / 2) ∧
      (ts1.toInt < 0 ∨ now.toNat < ts1.toInt →
        ∃ rtt warn, (e.observe s sample).2 = .highRtt rtt warn) := by
  intro sample
  constructor
  · intro offset instant hsent hback hanswer hused
    have hlt : sample.rtt < s.maxRtt := by
      refine UInt64.not_le.mp fun hle => ?_
      obtain ⟨rtt, warn, hwarn⟩ := (e.observed_observe s sample).highRtt_iff.mpr hle
      exact hused rtt warn hwarn
    obtain ⟨h0, hnow, -⟩ := (rtt_lt_iff tc1 ts1 now s.maxRtt).mp hlt
    have hrtt : sample.rtt.toNat = (now.toNat - ts1.toInt).toNat := rtt_ofRoundTrip tc1 h0 hnow
    have herror := offset_error_le hsent hback hanswer
    rw [← hrtt] at herror
    refine ⟨h0, hnow, by omega, hlt, herror, ?_⟩
    have hlimit := UInt64.lt_iff_toNat_lt.mp hlt
    exact Nat.div_le_div_right hlimit
  · intro hnever
    refine (e.observed_observe s sample).highRtt_iff.mpr ?_
    rw [show sample.rtt = endless from rtt_ofRoundTrip_endless tc1 hnever]
    exact le_endless s.maxRtt

/-- A remote clock 10 ns behind, read as late as possible on a round trip of 5 ns: the sample is
3 ns off, which is as far as it can be. -/
theorem Sample.accurate_late :
    let sample := Sample.ofRoundTrip 5 10 15
    sample.rtt = 5 ∧ sample.offset = 7 ∧
      (sample.offset.toInt - (10 : Int64).toInt).natAbs = (sample.rtt.toNat + 1) / 2 ∧
      (sample.rtt.toNat + 1) / 2 ≤ ({} : Settings).maxRtt.toNat / 2 := by
  intro sample
  have hused : ∀ rtt warn, ((Estimate.new {}).observe {} sample).2 ≠ .highRtt rtt warn := by
    intro rtt warn h
    have hle := (Estimate.observed_observe _ _ _).highRtt_iff.mp ⟨rtt, warn, h⟩
    exact absurd hle (by decide)
  have h := (Sample.accurate {} (.new {}) 5 10 15).1 10 15 (by decide) (by decide) (by decide) hused
  exact ⟨by decide, by decide, by decide, h.2.2.2.2.2⟩

end Clock
end FlightLink
