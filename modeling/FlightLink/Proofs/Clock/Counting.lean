/-
# Samples that were not used, in a row

The filter counts samples that took too long and samples that were too far away, and clears
both counts when it uses a sample or starts over. Each counter is told by the outcomes since
then: the first by how many samples took too long, up to the last warning, and the second by how
many were too far away (`Counts`). That takes limits that leave room in a counter's word, so that no
counter comes round to zero by itself. So there is a warning at every multiple of its limit, and the
filter starts over when the second limit is passed and not before (`Estimate.discipline`).

Key definitions: `Estimate.Deviates`, `Estimate.Observed`, `Estimate.after`, `Estimate.outcomes`,
`Outcome.slow`, `Outcome.far`, `Counts`.
Key theorems: `Estimate.observed_observe`, `Counts.observed`, `Counts.run`,
`Estimate.discipline`.
-/
import FlightLink.Clock.Estimate
import Mathlib.Data.List.DropRight
import Mathlib.Data.List.Induction

namespace FlightLink
namespace Clock

namespace Estimate

/-! ### One sample -/

/-- The sample is too far away from a converged estimate. -/
def Deviates (s : Settings) (e : Estimate) (sample : Sample) : Prop :=
  e.converged s = true ∧ s.maxDeviation < e.deviation sample

/-- All that can become of a sample. -/
inductive Observed (s : Settings) (e : Estimate) (sample : Sample) : Estimate × Outcome → Prop where
  | highRtt (warn : Bool) : s.maxRtt ≤ sample.rtt →
    (warn = true ↔ s.maxHighRtt ≤ countUp e.highRtt) →
    Observed s e sample
      ({ e with highRtt := if warn then 0 else countUp e.highRtt }, .highRtt sample.rtt warn)
  | highDeviation : sample.rtt < s.maxRtt → e.Deviates s sample →
    countUp e.highDeviation ≤ s.maxHighDeviation →
    Observed s e sample
      ({ e with highDeviation := countUp e.highDeviation }, .highDeviation (e.deviation sample))
  | reset : sample.rtt < s.maxRtt → e.Deviates s sample →
    s.maxHighDeviation < countUp e.highDeviation →
    Observed s e sample (new s, .reset (e.deviation sample))
  | accepted : sample.rtt < s.maxRtt → ¬ e.Deviates s sample →
    Observed s e sample (e.update s sample, .accepted)

theorem observed_observe (s : Settings) (e : Estimate) (sample : Sample) :
    e.Observed s sample (e.observe s sample) := by
  unfold observe
  by_cases hr : s.maxRtt ≤ sample.rtt
  · rw [if_pos hr]
    exact Observed.highRtt _ hr decide_eq_true_iff
  have hlow : sample.rtt < s.maxRtt := UInt64.not_le.mp hr
  rw [if_neg hr]
  by_cases hd : e.Deviates s sample
  · rw [if_pos (by simpa [Deviates] using hd)]
    unfold countHighDeviation
    dsimp only
    split
    · exact Observed.reset hlow hd ‹_›
    · exact Observed.highDeviation hlow hd (Nat.le_of_not_lt ‹_›)
  · rw [if_neg (by simpa [Deviates] using hd)]
    exact Observed.accepted hlow hd

/-- A sample counted as too far away leaves the counter of slow samples alone. -/
theorem Observed.highRtt_eq {s : Settings} {e : Estimate} {sample : Sample}
    {result : Estimate × Outcome} (ho : e.Observed s sample result) {deviation : UInt64}
    (hd : result.2 = .highDeviation deviation) : result.1.highRtt = e.highRtt := by
  cases ho with
  | highDeviation => rfl
  | highRtt | reset | accepted => cases hd

/-! ### Samples in a row -/

/-- The estimate after samples. -/
def after (s : Settings) (e : Estimate) : List Sample → Estimate
  | [] => e
  | sample :: samples => (e.observe s sample).1.after s samples

/-- What became of each of the samples. -/
def outcomes (s : Settings) (e : Estimate) : List Sample → List Outcome
  | [] => []
  | sample :: samples => (e.observe s sample).2 :: (e.observe s sample).1.outcomes s samples

theorem after_snoc (s : Settings) (sample : Sample) : ∀ (samples : List Sample) (e : Estimate),
    e.after s (samples ++ [sample]) = ((e.after s samples).observe s sample).1
  | [], _ => rfl
  | _ :: samples, _ => after_snoc s sample samples _

theorem outcomes_snoc (s : Settings) (sample : Sample) : ∀ (samples : List Sample) (e : Estimate),
    e.outcomes s (samples ++ [sample]) =
      e.outcomes s samples ++ [((e.after s samples).observe s sample).2]
  | [], _ => rfl
  | _ :: samples, _ => congrArg (_ :: ·) (outcomes_snoc s sample samples _)

end Estimate

/-! ### What the outcomes tell -/

namespace Outcome

/-- The sample was used, or the estimate started over. -/
def clears : Outcome → Bool
  | accepted => true
  | highRtt _ _ => false
  | highDeviation _ => false
  | reset _ => true

def isHighRtt : Outcome → Bool
  | highRtt _ _ => true
  | _ => false

def isHighDeviation : Outcome → Bool
  | highDeviation _ => true
  | _ => false

/-- The outcomes since a sample was used or the estimate started over. -/
def since (past : List Outcome) : List Outcome := past.rtakeWhile fun o => !o.clears

/-- How many of them took too long. -/
def slow (past : List Outcome) : Nat := (since past).countP isHighRtt

/-- How many of them were too far away. -/
def far (past : List Outcome) : Nat := (since past).countP isHighDeviation

theorem since_snoc (past : List Outcome) (o : Outcome) :
    since (past ++ [o]) = if o.clears then [] else since past ++ [o] := by
  unfold since
  rw [List.rtakeWhile_concat]
  cases o.clears <;> rfl

theorem slow_snoc (past : List Outcome) (o : Outcome) :
    slow (past ++ [o]) = if o.clears then 0 else slow past + if o.isHighRtt then 1 else 0 := by
  unfold slow
  rw [since_snoc]
  cases o.clears <;> simp [List.countP_append, List.countP_singleton]

theorem far_snoc (past : List Outcome) (o : Outcome) :
    far (past ++ [o]) = if o.clears then 0 else far past + if o.isHighDeviation then 1 else 0 := by
  unfold far
  rw [since_snoc]
  cases o.clears <;> simp [List.countP_append, List.countP_singleton]

end Outcome

open Outcome

/-- Counting up to a limit and from zero again is counting modulo the limit. -/
theorem succ_mod {limit n : Nat} (h : 0 < limit) :
    (n + 1) % limit = if limit ≤ n % limit + 1 then 0 else n % limit + 1 := by
  have hlt := Nat.mod_lt n h
  rw [← Nat.mod_add_mod]
  split
  · have he : n % limit + 1 = limit := by omega
    rw [he, Nat.mod_self]
  · exact Nat.mod_eq_of_lt (by omega)

/-- The counters are what the outcomes so far tell. -/
structure Counts (s : Settings) (past : List Outcome) (e : Estimate) : Prop where
  highRtt_eq : e.highRtt = if s.maxHighRtt = 0 then 0 else slow past % s.maxHighRtt
  highDeviation_eq : e.highDeviation = far past
  far_le : far past ≤ s.maxHighDeviation

namespace Counts

variable {s : Settings} {past : List Outcome} {e : Estimate} {sample : Sample}
  {result : Estimate × Outcome}

theorem nil (s : Settings) : Counts s [] (.new s) where
  highRtt_eq := by simp [Estimate.new, slow, since]
  highDeviation_eq := rfl
  far_le := Nat.zero_le _

/-- The counter of slow samples stays below its limit. -/
theorem highRtt_lt (h : Counts s past e) : e.highRtt < max s.maxHighRtt 1 := by
  rw [h.highRtt_eq]
  split
  · omega
  · have := Nat.mod_lt (slow past) (show 0 < s.maxHighRtt by omega)
    omega

/-- After a sample is used or the estimate starts over, the counts begin anew. -/
theorem cleared {o : Outcome} (ho : o.clears = true) (hr : e.highRtt = 0)
    (hd : e.highDeviation = 0) : Counts s (past ++ [o]) e where
  highRtt_eq := by simp [slow_snoc, ho, hr]
  highDeviation_eq := by rw [far_snoc, if_pos ho, hd]
  far_le := by rw [far_snoc, if_pos ho]; exact Nat.zero_le _

/-! Within these limits the counters do not outgrow their words. -/

variable (hrtt : s.maxHighRtt < UInt32.size) (hdev : s.maxHighDeviation < UInt32.size - 1)

include hrtt in
theorem highRtt_lt_size (h : Counts s past e) : e.highRtt + 1 < UInt32.size := by
  have hlt := h.highRtt_lt
  have hsize : UInt32.size = 4294967296 := rfl
  omega

include hdev in
theorem highDeviation_lt_size (h : Counts s past e) : e.highDeviation + 1 < UInt32.size := by
  have heq := h.highDeviation_eq
  have hle := h.far_le
  have hsize : UInt32.size = 4294967296 := rfl
  omega

include hrtt in
/-- A slow sample gives a warning when the limit divides their number. -/
theorem warn_iff (h : Counts s past e) :
    s.maxHighRtt ≤ Estimate.countUp e.highRtt ↔
      s.maxHighRtt = 0 ∨ s.maxHighRtt ∣ slow past + 1 := by
  rw [Estimate.countUp_of_lt (h.highRtt_lt_size hrtt), h.highRtt_eq]
  by_cases hz : s.maxHighRtt = 0
  · simp [hz]
  · have hpos : 0 < s.maxHighRtt := by omega
    have hmod := succ_mod (n := slow past) hpos
    rw [if_neg hz, Nat.dvd_iff_mod_eq_zero, hmod]
    split <;> omega

include hrtt hdev in
/-- **Each sample keeps the counters to what the outcomes tell.** -/
theorem observed (h : Counts s past e) (ho : e.Observed s sample result) :
    Counts s (past ++ [result.2]) result.1 := by
  have hnext := Estimate.countUp_of_lt (h.highRtt_lt_size hrtt)
  have hnext' := Estimate.countUp_of_lt (h.highDeviation_lt_size hdev)
  cases ho with
  | highRtt warn hr hw =>
    have hslow : slow (past ++ [.highRtt sample.rtt warn]) = slow past + 1 := slow_snoc _ _
    have hfar : far (past ++ [.highRtt sample.rtt warn]) = far past := far_snoc _ _
    refine ⟨?_, hfar ▸ h.highDeviation_eq, hfar ▸ h.far_le⟩
    rw [hnext] at hw ⊢
    rw [hslow]
    by_cases hz : s.maxHighRtt = 0
    · rw [if_pos hz, if_pos (hw.mpr (by omega))]
    · have heq := h.highRtt_eq
      rw [if_neg hz] at heq
      rw [if_neg hz, succ_mod (by omega), ← heq]
      by_cases hwarn : warn = true
      · rw [if_pos hwarn, if_pos (hw.mp hwarn)]
      · rw [if_neg hwarn, if_neg fun hle => hwarn (hw.mpr hle)]
  | highDeviation hr hd hlt =>
    have hslow : slow (past ++ [.highDeviation (e.deviation sample)]) = slow past :=
      slow_snoc _ _
    have hfar : far (past ++ [.highDeviation (e.deviation sample)]) = far past + 1 :=
      far_snoc _ _
    have heq := h.highDeviation_eq
    rw [hnext'] at hlt ⊢
    exact ⟨hslow ▸ h.highRtt_eq, by rw [hfar, ← heq], hfar ▸ by omega⟩
  | reset hr hd hle => exact cleared rfl rfl rfl
  | accepted hr hd => exact cleared rfl rfl rfl

include hrtt hdev in
/-- **After a run the counters are what its outcomes tell.** -/
theorem run (samples : List Sample) :
    Counts s ((Estimate.new s).outcomes s samples) ((Estimate.new s).after s samples) := by
  induction samples using List.reverseRecOn with
  | nil => exact nil s
  | append_singleton samples sample ih =>
    rw [Estimate.after_snoc, Estimate.outcomes_snoc]
    exact ih.observed hrtt hdev (Estimate.observed_observe s _ sample)

include hrtt in
/-- A slow sample warns at the multiples of the limit, and leaves the other counter alone. -/
theorem of_highRtt (h : Counts s past e) (ho : e.Observed s sample result) {rtt : UInt64}
    {warn : Bool} (hr : result.2 = .highRtt rtt warn) :
    (warn = true ↔ s.maxHighRtt = 0 ∨ s.maxHighRtt ∣ slow (past ++ [.highRtt rtt warn])) ∧
      result.1.highDeviation = e.highDeviation := by
  have hslow : slow (past ++ [.highRtt rtt warn]) = slow past + 1 := slow_snoc _ _
  cases ho with
  | highRtt warn _ hw =>
    cases hr
    exact ⟨hslow ▸ hw.trans (h.warn_iff hrtt), rfl⟩
  | highDeviation | reset | accepted => cases hr

include hdev in
/-- A sample too far away makes the estimate start over when the limit is used up. -/
theorem of_deviates (h : Counts s past e) (ho : e.Observed s sample result)
    (hr : sample.rtt < s.maxRtt) (hd : e.Deviates s sample) :
    result.2 =
      if far past = s.maxHighDeviation then .reset (e.deviation sample)
      else .highDeviation (e.deviation sample) := by
  have heq := h.highDeviation_eq
  have hle := h.far_le
  have hnext := Estimate.countUp_of_lt (h.highDeviation_lt_size hdev)
  cases ho with
  | highRtt warn hr' => exact absurd hr (UInt64.not_lt.mpr hr')
  | highDeviation _ _ hlt => rw [if_neg (by omega)]
  | reset _ _ hge => rw [if_pos (by omega)]
  | accepted _ hd' => exact absurd hd hd'

end Counts

/-- **Warnings and restarts over a run.** After any samples the counter of slow ones is their
number modulo its limit, and the other counter is the number of those too far away, which is
within its limit; no counter outgrows its word. A slow sample warns when their number reaches a
multiple of the limit; one too far away makes the estimate start over if the limit is used up;
neither touches the other's counter. -/
theorem Estimate.discipline (s : Settings) (hrtt : s.maxHighRtt < UInt32.size)
    (hdev : s.maxHighDeviation < UInt32.size - 1) (samples : List Sample) :
    let e := (new s).after s samples
    let past := (new s).outcomes s samples
    (e.highRtt = if s.maxHighRtt = 0 then 0 else slow past % s.maxHighRtt) ∧
      (e.highDeviation = far past ∧ far past ≤ s.maxHighDeviation) ∧
      (e.highRtt + 1 < UInt32.size ∧ e.highDeviation + 1 < UInt32.size) ∧
      ∀ sample,
        (∀ rtt warn, (e.observe s sample).2 = .highRtt rtt warn →
          (warn = true ↔ s.maxHighRtt = 0 ∨ s.maxHighRtt ∣ slow (past ++ [.highRtt rtt warn])) ∧
            (e.observe s sample).1.highDeviation = e.highDeviation) ∧
        (∀ deviation, (e.observe s sample).2 = .highDeviation deviation →
          (e.observe s sample).1.highRtt = e.highRtt) ∧
        (sample.rtt < s.maxRtt → e.Deviates s sample →
          (e.observe s sample).2 =
            if far past = s.maxHighDeviation then .reset (e.deviation sample)
            else .highDeviation (e.deviation sample)) := by
  intro e past
  have h : Counts s past e := .run hrtt hdev samples
  refine ⟨h.highRtt_eq, ⟨h.highDeviation_eq, h.far_le⟩,
    ⟨h.highRtt_lt_size hrtt, h.highDeviation_lt_size hdev⟩, fun sample => ?_⟩
  have hobserved := e.observed_observe s sample
  refine ⟨fun rtt warn ho => ?_, fun deviation ho => ?_, fun hr hd => ?_⟩
  · exact h.of_highRtt hrtt hobserved ho
  · exact hobserved.highRtt_eq ho
  · exact h.of_deviates hdev hobserved hr hd

/-- A filter with small limits that is converged from the start. -/
def Settings.strict : Settings := { maxHighRtt := 2, maxHighDeviation := 1, window := 0 }

/-- A sample that takes too long. -/
def Sample.late : Sample := ⟨0, 10000000⟩

/-- A sample that is too far away from a new estimate. -/
def Sample.distant : Sample := ⟨200000000, 1000⟩

/-- A late sample, a distant one and a late one give one warning; the next distant one makes the
estimate start over. -/
theorem Estimate.discipline_strict :
    let e := (new .strict).after .strict [.late, .distant, .late]
    (new .strict).outcomes .strict [.late, .distant, .late] =
        [.highRtt 10000000 false, .highDeviation 200000000, .highRtt 10000000 true] ∧
      e.highRtt = 0 ∧ e.highDeviation = 1 ∧
      (e.observe .strict .distant).2 = .reset 200000000 := by
  intro e
  have ho : (new .strict).outcomes .strict [.late, .distant, .late] =
      [.highRtt 10000000 false, .highDeviation 200000000, .highRtt 10000000 true] := by
    decide +kernel
  have hd : e.Deviates .strict .distant := by
    unfold Deviates
    decide +kernel
  have hdeviation : e.deviation .distant = 200000000 := by decide +kernel
  have h := discipline .strict (by decide) (by decide) [.late, .distant, .late]
  rw [ho] at h
  obtain ⟨hslow, ⟨hfar, -⟩, -, hnext⟩ := h
  have hreset := (hnext .distant).2.2 (by decide) hd
  rw [hdeviation] at hreset
  exact ⟨ho, hslow, hfar, hreset⟩

end Clock
end FlightLink
