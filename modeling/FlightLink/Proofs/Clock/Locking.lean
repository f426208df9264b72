/-
# Finding a clock again

An estimate without samples takes the first sample in time as it is, whatever offset it shows, and
so finds the remote clock at the start and again after every jump. All that can stand in the way is
the test for samples that are too far away, which a converged estimate makes. With any window at all
an estimate without samples is not converged. With a window of zero it is, and then it compares a
first sample with an offset that no sample has given: it takes what is near zero and nothing else
(`Observed.accepted_iff`), and a remote clock further off is never found
(`Estimate.never_locks_on`).

An estimate has no more samples than were accepted, and starts over only with a window of them. What
follows a jump is a run of its own, so a window of samples was accepted between any two jumps
(`Estimate.locks_on`).

Key theorems: `Estimate.Observed.accepted_iff`, `Estimate.sampleCount_after_le`,
`Estimate.offset_after`, `Estimate.window_le_count`, `Estimate.not_accepted_of_far`,
`Estimate.locks_on`.
-/
import FlightLink.Proofs.Clock.Counting

namespace FlightLink
namespace Clock
namespace Estimate

variable {s : Settings} {e : Estimate} {sample : Sample} {result : Estimate × Outcome}

theorem sampleCount_update (s : Settings) (e : Estimate) (sample : Sample) :
    (e.update s sample).sampleCount = min (e.sampleCount + 1) maxSampleCount := rfl

theorem sampleCount_update_ne_zero (s : Settings) (e : Estimate) (sample : Sample) :
    (e.update s sample).sampleCount ≠ 0 := by
  have hmax : maxSampleCount = 4294967295 := rfl
  rw [sampleCount_update]
  omega

/-- An estimate that shows no offset is as far from a sample as a new one. -/
theorem deviation_of_offset (h : e.offset = 0.0) (s : Settings) (sample : Sample) :
    e.deviation sample = (new s).deviation sample := by
  rw [deviation, h]
  rfl

/-! ### The first sample -/

namespace Observed

/-- Without a sample an estimate is converged only if the window is zero. So it takes any sample in
time, unless there is no window and the sample is too far from the offset that it shows. -/
theorem accepted_iff (ho : e.Observed s sample result) (hcount : e.sampleCount = 0) :
    result.2 = .accepted ↔
      sample.rtt < s.maxRtt ∧ (0 < s.window ∨ e.deviation sample ≤ s.maxDeviation) := by
  have hconverged : e.converged s = true ↔ s.window = 0 := by
    simp [converged, hcount]
  have hdeviates : e.Deviates s sample ↔
      ¬ (0 < s.window ∨ e.deviation sample ≤ s.maxDeviation) := by
    rw [Deviates, hconverged, not_or, UInt64.not_le, Nat.not_lt, Nat.le_zero]
  cases ho with
  | highRtt _ hle =>
    refine iff_of_false (fun h => ?_) fun h => UInt64.not_lt.mpr hle h.1
    cases h
  | highDeviation _ hd | reset _ hd =>
    refine iff_of_false (fun h => ?_) fun h => hdeviates.mp hd h.2
    cases h
  | accepted hrtt hd =>
    exact iff_of_true rfl ⟨hrtt, not_not.mp fun h => hd (hdeviates.mpr h)⟩

/-- The first sample that is taken is the estimate. -/
theorem first (ho : e.Observed s sample result) (hcount : e.sampleCount = 0)
    (ha : result.2 = .accepted) :
    result.1.offset = sample.raw ∧ result.1.skew = 0.0 ∧ result.1.sampleCount = 1 := by
  cases ho with
  | accepted =>
    have hsmooth : e.smooth s sample.raw = (sample.raw, 0.0) := if_pos hcount
    refine ⟨congrArg Prod.fst hsmooth, congrArg Prod.snd hsmooth, ?_⟩
    rw [sampleCount_update, hcount]
    rfl
  | highRtt | highDeviation | reset => cases ha

/-! ### One sample -/

/-- Only an accepted sample is counted. -/
theorem sampleCount_le (ho : e.Observed s sample result) :
    result.1.sampleCount ≤ e.sampleCount + if result.2 = .accepted then 1 else 0 := by
  cases ho with
  | highRtt | highDeviation => exact Nat.le_add_right _ _
  | reset => exact Nat.zero_le _
  | accepted => exact Nat.min_le_left _ _

/-- An estimate without samples keeps the offset that it started with. -/
theorem offset_eq (ho : e.Observed s sample result) (h : e.sampleCount = 0 → e.offset = 0.0)
    (hcount : result.1.sampleCount = 0) : result.1.offset = 0.0 := by
  cases ho with
  | highRtt | highDeviation => exact h hcount
  | reset => rfl
  | accepted => exact absurd hcount (sampleCount_update_ne_zero s e sample)

/-- An estimate starts over only with a window of samples, and then it is new. -/
theorem of_reset (ho : e.Observed s sample result) {deviation : UInt64}
    (hr : result.2 = .reset deviation) : result.1 = new s ∧ s.window ≤ e.sampleCount := by
  cases ho with
  | reset _ hd => exact ⟨rfl, by simpa [converged] using hd.1⟩
  | highRtt | highDeviation | accepted => cases hr

end Observed

/-! ### Samples in a row -/

/-- The samples of an estimate are among those that were accepted. -/
theorem sampleCount_after_le (s : Settings) : ∀ (samples : List Sample) (e : Estimate),
    (e.after s samples).sampleCount ≤ e.sampleCount + (e.outcomes s samples).count .accepted
  | [], _ => Nat.le_refl _
  | sample :: samples, e => by
    have hstep := (e.observed_observe s sample).sampleCount_le
    have ih := sampleCount_after_le s samples (e.observe s sample).1
    simp only [after, outcomes, List.count_cons, beq_iff_eq]
    omega

theorem offset_after (s : Settings) : ∀ (samples : List Sample) (e : Estimate),
    (e.sampleCount = 0 → e.offset = 0.0) → (e.after s samples).sampleCount = 0 →
    (e.after s samples).offset = 0.0
  | [], _, h => h
  | sample :: samples, e, h =>
    offset_after s samples (e.observe s sample).1 ((e.observed_observe s sample).offset_eq h)

/-- An outcome of a run is that of a sample, and those after it are of the run that goes on. -/
theorem outcomes_eq_append (s : Settings) {before rest : List Outcome} {o : Outcome} :
    ∀ {samples : List Sample} {e : Estimate}, e.outcomes s samples = before ++ o :: rest →
    ∃ earlier sample later, samples = earlier ++ sample :: later ∧
      e.outcomes s earlier = before ∧ ((e.after s earlier).observe s sample).2 = o ∧
      ((e.after s earlier).observe s sample).1.outcomes s later = rest
  | [], _, h => by simp [outcomes] at h
  | sample :: samples, e, h => by
    cases before with
    | nil =>
      obtain ⟨ho, hrest⟩ := List.cons.inj h
      exact ⟨[], sample, samples, rfl, rfl, ho, hrest⟩
    | cons first before =>
      obtain ⟨hfirst, htail⟩ := List.cons.inj h
      obtain ⟨earlier, next, later, rfl, hbefore, ho, hrest⟩ := outcomes_eq_append s htail
      refine ⟨sample :: earlier, next, later, rfl, ?_, ho, hrest⟩
      rw [outcomes, hfirst, hbefore]

/-- A window of samples is accepted before the first jump. -/
theorem window_le_count {samples : List Sample} {before rest : List Outcome} {deviation : UInt64}
    (h : (new s).outcomes s samples = before ++ .reset deviation :: rest) :
    s.window ≤ before.count .accepted := by
  obtain ⟨earlier, sample, later, -, hbefore, ho, -⟩ := outcomes_eq_append s h
  have hwindow := (observed_observe s _ sample).of_reset ho
  have hcount := sampleCount_after_le s earlier (new s)
  have hnew : (new s).sampleCount = 0 := rfl
  rw [hbefore] at hcount
  omega

/-- What follows a jump is a run from the start. -/
theorem outcomes_of_reset {samples : List Sample} {before rest : List Outcome} {deviation : UInt64}
    (h : (new s).outcomes s samples = before ++ .reset deviation :: rest) :
    ∃ later, (new s).outcomes s later = rest := by
  obtain ⟨earlier, sample, later, -, -, ho, hrest⟩ := outcomes_eq_append s h
  rw [((observed_observe s _ sample).of_reset ho).1] at hrest
  exact ⟨later, hrest⟩

/-- Without a window, samples that are too far from a new estimate are never accepted. -/
theorem not_accepted_of_far (hwindow : s.window = 0) : ∀ (samples : List Sample) (e : Estimate),
    e.sampleCount = 0 → e.offset = 0.0 →
    (∀ sample ∈ samples, s.maxDeviation < (new s).deviation sample) →
    .accepted ∉ e.outcomes s samples
  | [], _, _, _, _ => List.not_mem_nil
  | sample :: samples, e, hcount, hoffset, hfar => by
    have ho := e.observed_observe s sample
    have hrefused : (e.observe s sample).2 ≠ .accepted := by
      rw [ne_eq, ho.accepted_iff hcount, deviation_of_offset hoffset s, hwindow]
      rintro ⟨-, h | h⟩
      · exact Nat.lt_irrefl 0 h
      · exact UInt64.not_lt.mpr h (hfar sample List.mem_cons_self)
    -- A jump does not help: the estimate that starts over shows the same offset.
    have hnext : (e.observe s sample).1.sampleCount = 0 := by
      have hle := ho.sampleCount_le
      rw [if_neg hrefused, hcount] at hle
      exact Nat.le_zero.mp hle
    have ih := not_accepted_of_far hwindow samples (e.observe s sample).1 hnext
      (ho.offset_eq (fun _ => hoffset) hnext)
      (fun later hlater => hfar later (List.mem_cons_of_mem _ hlater))
    intro h
    rcases List.mem_cons.mp h with haccepted | hlater
    · exact hrefused haccepted.symm
    · exact ih hlater

/-- **A filter with a window always finds the remote clock again.** Whenever the estimate has no
sample, one is accepted exactly if it does not take too long and, without a window, is near enough
to a new estimate. Once accepted it is the estimate, without skew and as its only sample. Before the
first jump, and between any two, at least a window of samples is accepted. A filter without a window
finds no clock that only shows samples too far from a new estimate. -/
theorem locks_on (s : Settings) (samples : List Sample) :
    let e := (new s).after s samples
    let past := (new s).outcomes s samples
    (∀ sample, e.sampleCount = 0 →
      ((e.observe s sample).2 = .accepted ↔
        sample.rtt < s.maxRtt ∧ (0 < s.window ∨ (new s).deviation sample ≤ s.maxDeviation)) ∧
      ((e.observe s sample).2 = .accepted →
        (e.observe s sample).1.offset = sample.raw ∧ (e.observe s sample).1.skew = 0.0 ∧
          (e.observe s sample).1.sampleCount = 1)) ∧
      (∀ before rest deviation, past = before ++ .reset deviation :: rest →
        s.window ≤ before.count .accepted) ∧
      (∀ before between rest deviation deviation',
        past = before ++ .reset deviation :: (between ++ .reset deviation' :: rest) →
        s.window ≤ between.count .accepted) ∧
      (s.window = 0 → (∀ sample ∈ samples, s.maxDeviation < (new s).deviation sample) →
        .accepted ∉ past) := by
  intro e past
  refine ⟨fun sample hcount => ?_, fun before rest deviation h => window_le_count h, ?_, ?_⟩
  · have ho := e.observed_observe s sample
    have hoffset : e.offset = 0.0 := offset_after s samples (new s) (fun _ => rfl) hcount
    rw [← deviation_of_offset hoffset s]
    exact ⟨ho.accepted_iff hcount, ho.first hcount⟩
  · intro before between rest deviation deviation' h
    obtain ⟨later, hlater⟩ := outcomes_of_reset h
    exact window_le_count hlater
  · intro hwindow hfar
    exact not_accepted_of_far hwindow samples (new s) rfl rfl hfar

end Estimate

/-- A filter that converges with one sample and starts over with the next one that is far away. -/
def Settings.hasty : Settings := { maxHighDeviation := 0, window := 1 }

/-- After a jump the first sample from the new place is the estimate, and there is a sample that was
accepted before the clock jumps back. -/
theorem Estimate.locks_on_after_jump :
    let e := (new .hasty).after .hasty [⟨0, 1000⟩, .distant]
    (new .hasty).outcomes .hasty [⟨0, 1000⟩, .distant, .distant, ⟨0, 1000⟩] =
        [.accepted, .reset 200000000, .accepted, .reset 200000000] ∧
      e.sampleCount = 0 ∧ (e.observe .hasty .distant).2 = .accepted ∧
      (e.observe .hasty .distant).1.offset = Sample.distant.raw ∧
      (e.observe .hasty .distant).1.sampleCount = 1 ∧
      Settings.hasty.window ≤ [Outcome.accepted].count .accepted := by
  intro e
  have houtcomes : (new .hasty).outcomes .hasty [⟨0, 1000⟩, .distant, .distant, ⟨0, 1000⟩] =
      [.accepted, .reset 200000000, .accepted, .reset 200000000] := by
    decide +kernel
  have hcount : e.sampleCount = 0 := by decide +kernel
  have hfirst := (locks_on .hasty [⟨0, 1000⟩, .distant]).1 .distant hcount
  have hrtt : Sample.distant.rtt < Settings.hasty.maxRtt := by decide +kernel
  have haccepted := hfirst.1.mpr ⟨hrtt, .inl Nat.one_pos⟩
  have hjumps := (locks_on .hasty [⟨0, 1000⟩, .distant, .distant, ⟨0, 1000⟩]).2.2.1
    [.accepted] [.accepted] [] 200000000 200000000 houtcomes
  obtain ⟨hoffset, -, hone⟩ := hfirst.2 haccepted
  refine ⟨houtcomes, hcount, haccepted, ?_, ?_, hjumps⟩
  · exact hoffset
  · exact hone

/-- Without a window a clock 200 ms off is not found: two jumps are told of it, and no sample was
accepted between them, nor at all. -/
theorem Estimate.never_locks_on :
    (new .strict).sampleCount = 0 ∧ Sample.distant.rtt < Settings.strict.maxRtt ∧
      ((new .strict).observe .strict .distant).2 ≠ .accepted ∧
      (new .strict).outcomes .strict [.distant, .distant, .distant, .distant] =
        [.highDeviation 200000000, .reset 200000000,
          .highDeviation 200000000, .reset 200000000] := by
  decide +kernel

end Clock
end FlightLink
