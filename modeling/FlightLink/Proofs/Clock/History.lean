/-
# What the estimate owes to its history

The estimate holds nothing but what the history of calls explains: its sample count is the
number of samples used since it last started over, its gains are those of that count, and while
the count is zero it holds no offset and no skew. It starts over only once it has converged, so
a whole window of samples was used before every jump of the remote clock that is reported.

The invariant (`Explained`) is kept line by line: a line that is told of no sample changes neither
side, and each outcome of a sample moves both sides alike (`Explained.observed`).

Key definitions: `Entry.restarts`, `used`, `Explained`.
Key theorems: `Explained.observed`, `Explained.perform`, `Explained.run`,
`Synchronizer.estimate_of_history`.
-/
import FlightLink.Proofs.Clock.Counting
import FlightLink.Proofs.Clock.Run

namespace FlightLink
namespace Clock

/-! ### Samples used since the estimate started over -/

namespace Entry

/-- The line is an event of the given sort. -/
def tells (sort : Event → Bool) : Entry → Bool
  | did (.event e) => sort e
  | _ => false

/-- The estimate starts over, after a jump of the remote clock or because it is told to. -/
def restarts : Entry → Bool
  | called .reset => true
  | x => x.tells Event.jumps

theorem restarts_of_jump {x : Entry} (h : x.tells Event.jumps = true) : x.restarts = true := by
  cases x with
  | called call => cases h
  | did effect => exact h

end Entry

/-- The samples used since the estimate last started over, or since the beginning. -/
def used (past : List Entry) : Nat :=
  (past.rtakeWhile fun x => !x.restarts).countP (·.tells Event.accepts)

theorem used_snoc (past : List Entry) (x : Entry) :
    used (past ++ [x]) =
      if x.restarts then 0 else used past + if x.tells Event.accepts then 1 else 0 := by
  unfold used
  rw [List.rtakeWhile_concat]
  cases x.restarts <;> simp [List.countP_append, List.countP_singleton]

theorem used_snoc_restart (past : List Entry) {x : Entry} (h : x.restarts = true) :
    used (past ++ [x]) = 0 := by
  rw [used_snoc, if_pos h]

theorem used_snoc_aside (past : List Entry) {x : Entry} (hr : x.restarts = false)
    (ha : x.tells Event.accepts = false) : used (past ++ [x]) = used past := by
  simp [used_snoc, hr, ha]

/-! ### The invariant -/

variable {s : Settings} {past : List Entry} {e : Estimate}

/-- The estimate is explained by the history. -/
structure Explained (s : Settings) (past : List Entry) (e : Estimate) : Prop where
  sampleCount_eq : e.sampleCount = min (used past) Estimate.maxSampleCount
  gains_eq : e.gains = s.gains e.sampleCount
  /-- Without a sample there is no offset and no skew. -/
  blank : e.sampleCount = 0 → e.offset = 0.0 ∧ e.skew = 0.0
  converged : 0 < e.highDeviation → e.converged s = true
  /-- A window of samples was used before every jump. -/
  window_le : ∀ before x, x.tells Event.jumps = true → before ++ [x] <+: past →
    s.window ≤ used before

namespace Explained

/-- A jump in a longer history was there before, or is the new line. -/
theorem window_le_snoc (h : Explained s past e) {x : Entry}
    (hx : x.tells Event.jumps = true → s.window ≤ used past) :
    ∀ before y, y.tells Event.jumps = true → before ++ [y] <+: past ++ [x] →
      s.window ≤ used before := by
  intro before y hy hprefix
  rcases List.prefix_concat_iff.mp hprefix with heq | hold
  · obtain ⟨rfl, hyx⟩ := List.append_inj' heq rfl
    cases hyx
    exact hx hy
  · exact h.window_le before y hy hold

/-- A line at which the estimate does not start over is no jump. -/
theorem window_le_later (h : Explained s past e) {x : Entry} (hr : x.restarts = false) :
    ∀ before y, y.tells Event.jumps = true → before ++ [y] <+: past ++ [x] →
      s.window ≤ used before := by
  apply h.window_le_snoc
  intro hj
  rw [Entry.restarts_of_jump hj] at hr
  cases hr

theorem nil (s : Settings) : Explained s [] (.new s) where
  sampleCount_eq := rfl
  gains_eq := rfl
  blank := fun _ => ⟨rfl, rfl⟩
  converged := fun h => absurd h (Nat.lt_irrefl 0)
  window_le := by
    intro before x _ hprefix
    simp at hprefix

/-- A line that tells nothing of a sample changes nothing. -/
theorem aside (h : Explained s past e) {x : Entry} (hr : x.restarts = false)
    (ha : x.tells Event.accepts = false) : Explained s (past ++ [x]) e where
  sampleCount_eq := by rw [used_snoc_aside past hr ha, h.sampleCount_eq]
  gains_eq := h.gains_eq
  blank := h.blank
  converged := h.converged
  window_le := h.window_le_later hr

theorem asides (h : Explained s past e) (effects : List Effect)
    (hq : ∀ effect ∈ effects, effect.aside = true) : Explained s (past ++ effects.map .did) e := by
  induction effects generalizing past with
  | nil => simpa using h
  | cons effect effects ih =>
    have hline : (Entry.did effect).restarts = false ∧
        (Entry.did effect).tells Event.accepts = false := by
      have he := hq effect List.mem_cons_self
      cases effect with
      | event event => simp_all [Effect.aside, Entry.restarts, Entry.tells]
      | send | ignored => exact ⟨rfl, rfl⟩
    have hrest := ih (h.aside hline.1 hline.2)
      (fun other ho => hq other (List.mem_cons_of_mem _ ho))
    simpa [List.append_assoc] using hrest

/-- A history that ends with a new start explains a new estimate. -/
theorem restarted (h : Explained s past e) {x : Entry} (hr : x.restarts = true)
    (hx : x.tells Event.jumps = true → s.window ≤ used past) :
    Explained s (past ++ [x]) (.new s) where
  sampleCount_eq := by rw [used_snoc_restart past hr]; rfl
  gains_eq := rfl
  blank := fun _ => ⟨rfl, rfl⟩
  converged := fun hd => absurd hd (Nat.lt_irrefl 0)
  window_le := h.window_le_snoc hx

/-- A converged estimate has used a window of samples. -/
theorem window_le_used (h : Explained s past e) (hc : e.converged s = true) :
    s.window ≤ used past := by
  have hle : s.window ≤ e.sampleCount := by simpa [Estimate.converged] using hc
  calc s.window ≤ e.sampleCount := hle
    _ = min (used past) Estimate.maxSampleCount := h.sampleCount_eq
    _ ≤ used past := Nat.min_le_left _ _

/-- A sample that is not used leaves all but the counters of such samples alone. -/
theorem unused (h : Explained s past e) {x : Entry} (hr : x.restarts = false)
    (ha : x.tells Event.accepts = false) (highRtt highDeviation : Nat)
    (hc : 0 < highDeviation → e.converged s = true) :
    Explained s (past ++ [x]) { e with highRtt, highDeviation } where
  sampleCount_eq := (h.aside hr ha).sampleCount_eq
  gains_eq := h.gains_eq
  blank := h.blank
  converged := hc
  window_le := h.window_le_later hr

/-- A sample that is used counts on both sides. -/
theorem updated (h : Explained s past e) (sample : Sample) {x : Entry} (hr : x.restarts = false)
    (ha : x.tells Event.accepts = true) : Explained s (past ++ [x]) (e.update s sample) where
  sampleCount_eq := by
    have hu : used (past ++ [x]) = used past + 1 := by simp [used_snoc, hr, ha]
    have heq := h.sampleCount_eq
    show min (e.sampleCount + 1) Estimate.maxSampleCount = _
    rw [hu]
    omega
  gains_eq := rfl
  blank := by
    -- the count is at least one after an update
    intro hz
    have hz : min (e.sampleCount + 1) Estimate.maxSampleCount = 0 := hz
    have hmax : Estimate.maxSampleCount = 4294967295 := rfl
    omega
  converged := fun hd => absurd hd (Nat.lt_irrefl 0)
  window_le := h.window_le_later hr

/-- **Whatever becomes of a sample, the event that is told of it explains the estimate.** -/
theorem observed (h : Explained s past e) {sample : Sample} {result : Estimate × Outcome}
    (ho : e.Observed s sample result) :
    Explained s (past ++ [.did (.event (.ofOutcome result.1 result.2))]) result.1 := by
  cases ho with
  | highRtt warn =>
    cases warn with
    | true => exact h.unused rfl rfl 0 e.highDeviation h.converged
    | false => exact h.unused rfl rfl (Estimate.countUp e.highRtt) e.highDeviation h.converged
  | highDeviation _ hd =>
    exact h.unused rfl rfl e.highRtt (Estimate.countUp e.highDeviation) fun _ => hd.1
  | reset _ hd => exact h.restarted rfl fun _ => h.window_le_used hd.1
  | accepted => exact h.updated sample rfl rfl

/-- **A call keeps the estimate explained by the history.** -/
theorem perform {n : Synchronizer} (h : Explained n.settings past n.estimate) (t : Moment) :
    Explained n.settings (past ++ .called t.call :: (n.perform t).2.map .did)
      (n.perform t).1.estimate := by
  by_cases hr : t.call = .reset
  · rw [n.perform_reset hr, hr]
    exact h.restarted rfl fun hj => by cases hj
  · have hcall : Explained n.settings (past ++ [.called t.call]) n.estimate := by
      apply h.aside
      · cases hc : t.call with
        | reset => exact absurd hc hr
        | timesync | systemTime | work | setLink => rfl
      · rfl
    rw [List.append_cons]
    cases hs : t.sample? with
    | some sample =>
      rw [n.perform_sample hs]
      exact hcall.observed (n.estimate.observed_observe n.settings sample)
    | none =>
      obtain ⟨-, he, hq⟩ := n.perform_aside hs hr
      rw [he]
      exact hcall.asides _ hq

/-- **A run keeps the estimate explained by the history.** -/
theorem run {n : Synchronizer} (h : Explained n.settings past n.estimate) (ts : List Moment) :
    Explained n.settings (past ++ n.trace ts) (n.after ts).estimate := by
  induction ts generalizing n past with
  | nil => simpa [Synchronizer.trace, Synchronizer.after] using h
  | cons t ts ih =>
    have hstep := h.perform t
    rw [← n.settings_perform t] at hstep
    have hrest := ih hstep
    rw [n.settings_perform t] at hrest
    simpa [Synchronizer.trace, Synchronizer.after, List.append_assoc] using hrest

end Explained

/-! ### Samples that are not used -/

/-- Offset, skew, sample count and gains are what they were. -/
def Estimate.SameAs (e before : Estimate) : Prop :=
  e.offset = before.offset ∧ e.skew = before.skew ∧ e.sampleCount = before.sampleCount ∧
    e.gains = before.gains

/-- What is told of a sample says what it did to the estimate. -/
theorem Estimate.Observed.told {sample : Sample} {result : Estimate × Outcome}
    (ho : e.Observed s sample result) :
    ((Event.ofOutcome result.1 result.2).rejects = true → result.1.SameAs e) ∧
      ((Event.ofOutcome result.1 result.2).jumps = true → result.1 = .new s) := by
  have hsame : (Event.ofOutcome result.1 result.2).rejects = true → result.1.SameAs e := by
    intro hj
    cases ho with
    | highRtt | highDeviation => exact ⟨rfl, rfl, rfl, rfl⟩
    | reset | accepted => cases hj
  have hnew : (Event.ofOutcome result.1 result.2).jumps = true → result.1 = .new s := by
    intro hj
    cases ho with
    | reset => rfl
    | highRtt warn => cases warn <;> cases hj
    | highDeviation | accepted => cases hj
  exact ⟨hsame, hnew⟩

namespace Synchronizer

theorem perform_told (n : Synchronizer) (t : Moment) {event : Event}
    (hm : .event event ∈ (n.perform t).2) :
    (event.rejects = true → (n.perform t).1.estimate.SameAs n.estimate) ∧
      (event.jumps = true → (n.perform t).1.estimate = .new n.settings) := by
  by_cases hr : t.call = .reset
  · rw [n.perform_reset hr] at hm
    cases hm
  · cases hs : t.sample? with
    | some sample =>
      rw [n.perform_sample hs] at hm ⊢
      cases List.mem_singleton.mp hm
      exact (n.estimate.observed_observe n.settings sample).told
    | none =>
      obtain ⟨-, -, hq⟩ := n.perform_aside hs hr
      have ha := hq _ hm
      constructor
      · intro hj
        simp [Effect.aside, hj] at ha
      · intro hj
        simp [Effect.aside, hj] at ha

/-- **The estimate after any run.** The sample count is the number of samples used since the
estimate last started over, as far as it goes; the gains are those of this count; without a
sample offset and skew are zero; and samples were too far away only for a converged estimate.
The next sample that is not used leaves all of this as it was, a jump or a reset leaves a new
estimate, and every jump so far came after a window of used samples. -/
theorem estimate_of_history (settings : Settings) (ts : List Moment) :
    let n := (new settings).after ts
    let past := (new settings).trace ts
    n.estimate.sampleCount = min (used past) (UInt32.size - 1) ∧
      n.estimate.gains = settings.gains n.estimate.sampleCount ∧
      (n.estimate.sampleCount = 0 → n.estimate.offset = 0.0 ∧ n.estimate.skew = 0.0) ∧
      (0 < n.estimate.highDeviation → n.converged = true) ∧
      (∀ t event, .event event ∈ (n.perform t).2 →
        (event.rejects = true → (n.perform t).1.estimate.SameAs n.estimate) ∧
          (event.jumps = true → (n.perform t).1.estimate = .new settings)) ∧
      (∀ t, t.call = .reset → (n.perform t).1.estimate = .new settings) ∧
      ∀ before deviation, before ++ [.did (.event (.timeJump deviation))] <+: past →
        settings.window ≤ used before := by
  intro n past
  have hs : n.settings = settings := (new settings).settings_after ts
  have h : Explained settings past n.estimate := (Explained.nil settings).run (n := new settings) ts
  refine ⟨h.sampleCount_eq, h.gains_eq, h.blank, ?_, ?_, ?_, ?_⟩
  · intro hd
    show n.estimate.converged n.settings = true
    rw [hs]
    exact h.converged hd
  · intro t event hm
    have ht := n.perform_told t hm
    rwa [hs] at ht
  · intro t hr
    rw [n.perform_reset hr]
    exact congrArg Estimate.new hs
  · intro before deviation hprefix
    exact h.window_le before _ rfl hprefix

end Synchronizer

end Clock
end FlightLink
