/-
# When probes are sent

A probe is sent by a call for work while the link is up, and two probes in a row are sent at
readings of the clock that are a whole interval apart. The clock may be set and turned back between
calls: the law is about what it shows, not about time that passed. It holds because the last
reading at which a probe was sent is kept, and no other call touches it
(`Synchronizer.lastProbe_after`), neither a reset nor a link that goes down and up again.

The other way round, a call for work on an active link does send a probe, exactly one, as soon as
the clock shows an interval more than at the last one (`Synchronizer.probe_pacing`).

Key definitions: `linkUp`, `Synchronizer.probes`, `Synchronizer.probeTimes`, `Apart`.
Key theorems: `Synchronizer.probes_iff`, `Synchronizer.lastProbe_after`,
`Synchronizer.isChain_probeTimes`, `Synchronizer.probe_pacing`.
-/
import FlightLink.Proofs.Clock.Run
import FlightLink.Station
import Mathlib.Data.List.Chain

namespace FlightLink
namespace Clock

/-- The link is up after calls: it was put up last, or it was up and nothing was done to it. -/
def linkUp (up : Bool) : List Moment → Bool
  | [] => up
  | t :: ts =>
    match t.call with
    | .setLink active => linkUp active ts
    | _ => linkUp up ts

/-- A probe's sending is told. -/
def Effect.tellsProbe : Effect → Bool
  | event (.probeSent _) => true
  | _ => false

/-- The second reading of the clock is an interval past the first one, if there is an interval. -/
def Apart (interval : Nat) (first second : UInt64) : Prop :=
  0 < interval → (interval : Int) ≤ (second.toNat : Int) - first.toNat

namespace Synchronizer

/-- A probe is sent at the moment. -/
def probes (s : Synchronizer) (t : Moment) : Bool := (s.perform t).2.any Effect.tellsProbe

/-- What the clock showed when probes were sent. -/
def probeTimes (s : Synchronizer) : List Moment → List UInt64
  | [] => []
  | t :: ts =>
    if s.probes t then t.clock.steady :: (s.perform t).1.probeTimes ts
    else (s.perform t).1.probeTimes ts

variable (s : Synchronizer) {t : Moment}

/-! ### One call -/

/-- A call for work sends a probe if the link is up and one is due. -/
theorem perform_work (h : t.call = .work) :
    s.perform t =
      if s.linkActive && s.probeDue t.clock.steady then
        ({ s with lastProbe := some t.clock.steady },
          [.send (.timesync ⟨0, stamp t.clock.steady⟩), .event (.probeSent t.clock.steady)])
      else (s, []) := by
  unfold perform
  rw [h]
  rfl

/-- No other call sends a probe, or changes when the last one was sent; the link is up after it if
it was, unless it is a call that sets the link. -/
theorem perform_of_ne_work (h : t.call ≠ .work) :
    s.probes t = false ∧ (s.perform t).1.lastProbe = s.lastProbe ∧
      (s.perform t).1.linkActive = linkUp s.linkActive [t] := by
  obtain ⟨clock, call⟩ := t
  cases call with
  | timesync m =>
    simp only [probes, perform, onTimesync]
    split
    · exact ⟨rfl, rfl, rfl⟩
    · split
      · exact ⟨rfl, rfl, rfl⟩
      · refine ⟨?_, rfl, rfl⟩
        -- no event of a sample tells of a probe
        cases s.estimate.observe s.settings (.ofRoundTrip m.tc1 m.ts1 clock.steady) with
        | mk estimate outcome =>
          cases outcome with
          | highRtt rtt warn => cases warn <;> rfl
          | accepted | highDeviation | reset => rfl
  | systemTime m =>
    simp only [probes, perform, onSystemTime]
    split <;> exact ⟨rfl, rfl, rfl⟩
  | work => exact absurd rfl h
  | setLink | reset => exact ⟨rfl, rfl, rfl⟩

/-- **A probe is sent by a call for work while the link is up and a probe is due**, and by no
other call. -/
theorem probes_iff :
    s.probes t = true ↔
      t.call = .work ∧ s.linkActive = true ∧ s.probeDue t.clock.steady = true := by
  by_cases h : t.call = .work
  · rw [probes, s.perform_work h]
    cases hl : s.linkActive <;> cases hd : s.probeDue t.clock.steady <;>
      simp [h, Effect.tellsProbe]
  · rw [(s.perform_of_ne_work h).1]
    simp [h]

theorem perform_of_probes (h : s.probes t = true) :
    s.perform t =
      ({ s with lastProbe := some t.clock.steady },
        [.send (.timesync ⟨0, stamp t.clock.steady⟩), .event (.probeSent t.clock.steady)]) := by
  obtain ⟨hcall, hlink, hdue⟩ := s.probes_iff.mp h
  rw [s.perform_work hcall, hlink, hdue]
  rfl

theorem perform_of_not_probes (h : t.call = .work) (hp : ¬ s.probes t = true) :
    s.perform t = (s, []) := by
  rw [s.perform_work h, if_neg]
  intro hdue
  rw [Bool.and_eq_true] at hdue
  exact hp (s.probes_iff.mpr ⟨h, hdue⟩)

/-- Only a probe changes when the last one was sent. -/
theorem lastProbe_perform :
    (s.perform t).1.lastProbe =
      if s.probes t then some t.clock.steady else s.lastProbe := by
  by_cases hp : s.probes t = true
  · rw [if_pos hp, s.perform_of_probes hp]
  · rw [if_neg hp]
    by_cases h : t.call = .work
    · rw [s.perform_of_not_probes h hp]
    · exact (s.perform_of_ne_work h).2.1

/-- Only a call that sets the link changes whether it is up. -/
theorem linkActive_perform : (s.perform t).1.linkActive = linkUp s.linkActive [t] := by
  by_cases h : t.call = .work
  · rw [s.perform_work h]
    simp only [linkUp, h]
    split <;> rfl
  · exact (s.perform_of_ne_work h).2.2

/-! ### Runs -/

theorem linkActive_after (ts : List Moment) :
    (s.after ts).linkActive = linkUp s.linkActive ts := by
  induction ts generalizing s with
  | nil => rfl
  | cons t ts ih =>
    rw [after, ih, linkActive_perform]
    cases hc : t.call <;> simp only [linkUp, hc]

/-- **What is kept is the reading at which the last probe was sent**, whatever else was called. -/
theorem lastProbe_after (ts : List Moment) :
    (s.after ts).lastProbe = (s.probeTimes ts).getLast?.or s.lastProbe := by
  induction ts generalizing s with
  | nil => rfl
  | cons t ts ih =>
    rw [after, ih, lastProbe_perform, probeTimes]
    by_cases h : s.probes t = true
    · rw [if_pos h, if_pos h, List.getLast?_cons]
      cases ((s.perform t).1.probeTimes ts).getLast? <;> rfl
    · rw [if_neg h, if_neg h]

theorem interval_perform : (s.perform t).1.interval = s.interval := by
  unfold interval
  rw [s.settings_perform t]

/-- A probe that is due is an interval past the last one. -/
theorem apart_of_due {last now : UInt64} (hl : s.lastProbe = some last)
    (hd : s.probeDue now = true) : Apart s.interval last now := by
  have hle : s.interval ≤ now.toNat - last.toNat := by
    simpa [probeDue, hl] using hd
  intro hpos
  omega

/-- **Two probes in a row are an interval apart.** -/
theorem isChain_probeTimes (ts : List Moment) :
    (s.lastProbe.toList ++ s.probeTimes ts).IsChain (Apart s.interval) := by
  induction ts generalizing s with
  | nil => cases hl : s.lastProbe <;> simp [probeTimes]
  | cons t ts ih =>
    have hrest := ih (s.perform t).1
    rw [interval_perform, lastProbe_perform] at hrest
    unfold probeTimes
    by_cases h : s.probes t = true
    · rw [if_pos h] at hrest ⊢
      cases hl : s.lastProbe with
      | none => exact hrest
      | some last =>
        exact .cons_cons (s.apart_of_due hl (s.probes_iff.mp h).2.2) hrest
    · rw [if_neg h] at hrest ⊢
      exact hrest

/-! ### Setting the link and forgetting the samples -/

/-- Calls that set the link or forget the samples leave it to the last probe when the next one is
due. -/
theorem probeDue_after (fiddles : List Moment)
    (h : ∀ f ∈ fiddles, f.call = .reset ∨ ∃ active, f.call = .setLink active) (now : UInt64) :
    (s.after fiddles).probeDue now = s.probeDue now := by
  induction fiddles generalizing s with
  | nil => rfl
  | cons f fiddles ih =>
    have hne : f.call ≠ .work := by
      rcases h f List.mem_cons_self with hr | ⟨active, hl⟩
      · simp [hr]
      · simp [hl]
    rw [after, ih _ fun g hg => h g (List.mem_cons_of_mem _ hg)]
    unfold probeDue
    rw [(s.perform_of_ne_work hne).2.1, interval_perform]

/-! ### The law -/

/-- What a call without a probe sends is at most the answer to the request that it is made for. -/
theorem answer_of_not_probes (hp : s.probes t = false) {m : Wire.Timesync}
    (hm : m ∈ (s.perform t).2.filterMap Effect.timesync?) :
    ∃ q, t.call = .timesync q ∧ q.isRequest = true ∧ m = ⟨stamp t.clock.steady, q.ts1⟩ := by
  by_cases h : ∃ q, t.call = .timesync q
  · obtain ⟨q, hq⟩ := h
    have hperform : s.perform t = s.onTimesync t.clock.steady q := by
      unfold perform
      rw [hq]
    rw [hperform, s.timesync_onTimesync] at hm
    by_cases hr : q.isRequest = true
    · rw [if_pos hr] at hm
      exact ⟨q, hq, hr, List.mem_singleton.mp hm⟩
    · rw [if_neg hr] at hm
      cases hm
  · have hwork := (s.timesync_perform (fun q hq => h ⟨q, hq⟩) hm).1
    rw [s.perform_of_not_probes hwork (by simp [hp])] at hm
    cases hm

/-- **Probe pacing.** In any run, at any moment: a probe is sent only by a call for work while the
link is up, which sends just this one message, with `tc1` zero and the reading in `ts1`, and the
mailbox is offered it whether it has room, is full or has lost its receiver. All other timesync
messages are answers to requests. Two probes in a row are a whole interval apart on the clock, and
when the clock shows that much, or no probe was sent yet, a call for work on an active link sends
one. Setting the link or forgetting the samples brings no probe that would not have been sent
without. -/
theorem probe_pacing (settings : Settings) (ts : List Moment) (t : Moment) :
    let s := (new settings).after ts
    let sent := (new settings).probeTimes ts
    let interval := min settings.sendInterval (UInt64.size - 1)
    let now := t.clock.steady
    (s.probes t = true →
      t.call = .work ∧ linkUp false ts = true ∧
      (s.perform t).2 = [.send (.timesync ⟨0, stamp now⟩), .event (.probeSent now)] ∧
      (stamp now).toInt = min (now.toNat : Int) Int64.maxValue.toInt ∧
      ∀ (H : Type) (box : Mailbox Wire.Outbound),
        (Station.settle box ((s.perform t).2.map (FlightLink.Effect.clock (H := H)))).1 =
          (box.offer (.timesync ⟨0, stamp now⟩)).1) ∧
    (s.probes t = false → ∀ m ∈ (s.perform t).2.filterMap Effect.timesync?,
      ∃ q, t.call = .timesync q ∧ q.isRequest = true ∧ m = ⟨stamp now, q.ts1⟩) ∧
    sent.IsChain (Apart interval) ∧
    (t.call = .work → linkUp false ts = true →
      (∀ last, sent.getLast? = some last → last.toNat + interval ≤ now.toNat) →
      s.probes t = true) ∧
    ∀ fiddles : List Moment, (∀ f ∈ fiddles, f.call = .reset ∨ ∃ active, f.call = .setLink active) →
      linkUp false ts = true → (s.after fiddles).probes t = true → s.probes t = true := by
  intro s sent interval now
  have hinterval : s.interval = interval := by
    show min s.settings.sendInterval _ = _
    rw [(new settings).settings_after ts]
    rfl
  have hlink : s.linkActive = linkUp false ts := (new settings).linkActive_after ts
  have hlast : s.lastProbe = sent.getLast? := by
    rw [(new settings).lastProbe_after ts]
    exact Option.or_none
  refine ⟨?_, ?_, ?_, ?_, ?_⟩
  · intro hp
    obtain ⟨hcall, hup, -⟩ := s.probes_iff.mp hp
    refine ⟨hcall, hlink ▸ hup, ?_, toInt_stamp now, ?_⟩
    · rw [s.perform_of_probes hp]
    · intro H box
      rw [Station.settle_outbox, s.perform_of_probes hp]
      rfl
  · intro hp m hm
    exact s.answer_of_not_probes hp hm
  · exact (new settings).isChain_probeTimes ts
  · intro hcall hup hdue
    refine s.probes_iff.mpr ⟨hcall, hlink.trans hup, ?_⟩
    unfold probeDue
    rw [hlast]
    cases hsent : sent.getLast? with
    | none => rfl
    | some last =>
      have hle : last.toNat + interval ≤ t.clock.steady.toNat := hdue last hsent
      rw [decide_eq_true_eq, hinterval]
      omega
  · intro fiddles hf hup hp
    obtain ⟨hcall, -, hdue⟩ := (s.after fiddles).probes_iff.mp hp
    rw [s.probeDue_after fiddles hf] at hdue
    exact s.probes_iff.mpr ⟨hcall, hlink.trans hup, hdue⟩

/-- A link that went down and up again after a probe, with a clock that was turned back and on:
the next probe is sent five seconds past the last one, and not before. -/
theorem probe_pacing_resumed :
    let run : List Moment :=
      [⟨⟨1000000000, 0⟩, .setLink true⟩, ⟨⟨1000000000, 0⟩, .work⟩, ⟨⟨0, 0⟩, .setLink false⟩,
        ⟨⟨0, 0⟩, .reset⟩, ⟨⟨5999999999, 0⟩, .setLink true⟩, ⟨⟨5999999999, 0⟩, .work⟩]
    linkUp false run = true ∧ (new {}).probeTimes run = [1000000000] ∧
      ((new {}).after run).probes ⟨⟨6000000000, 0⟩, .work⟩ = true := by
  intro run
  have hup : linkUp false run = true := rfl
  have hsent : (new {}).probeTimes run = [1000000000] := by decide
  refine ⟨hup, hsent, (probe_pacing {} run ⟨⟨6000000000, 0⟩, .work⟩).2.2.2.1 rfl hup ?_⟩
  intro last hlast
  rw [hsent] at hlast
  cases hlast
  decide

end Synchronizer

end Clock
end FlightLink
