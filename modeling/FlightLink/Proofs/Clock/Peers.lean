/-
# Two synchronizers and the network between them

At each end of a link stands a synchronizer with settings and a clock of its own, and the clock
may show anything at any time. The network keeps every message that an end ever sent and brings
any of them to the other end whenever it likes: messages are lost, repeated, late and out of
order.

Why a message was sent does not travel with it. Its receiver takes it as a probe if `tc1` is zero,
so all hangs on what an answer carries there: the time at which it was given. That is zero exactly
if the clock showed zero (`Turn.Fits.isRequest_answer`). As long as no probe is answered at that
time, an answer causes no message, there are no more answers than probes arrived, and a sample
always goes back to a probe of the end that takes it (`Link.no_reply_storm`). An answer given at
time zero is answered in turn (`Link.reply_storm_at_zero`).

Key definitions: `Letter`, `Turn`, `Link`, `Link.move`, `Link.after`, `Turn.Fits`, `Traced`.
Key theorems: `traced_after`, `Turn.Fits.isRequest_answer`, `Turn.Fits.echo`,
`Link.no_reply_storm`.
-/
import FlightLink.Proofs.Clock.Run
import Mathlib.Data.List.Induction

namespace FlightLink
namespace Clock

/-! ### The link -/

/-- The two ends of a link. -/
inductive Side where
  | near
  | far
  deriving DecidableEq, Repr

def Side.other : Side → Side
  | near => far
  | far => near

/-- Why a message was sent. -/
inductive Purpose where
  | probe
  | answer
  deriving DecidableEq, Repr

/-- A message on the network, and why it was sent, which the message does not tell. -/
structure Letter where
  purpose : Purpose
  message : Wire.Timesync
  deriving DecidableEq, Repr

/-- One line in the history of a link: at one of its ends a call was made. -/
structure Turn where
  side : Side
  moment : Moment
  /-- The letter that the network brought, if the call was made for one. -/
  arrived : Option Letter
  /-- What came of the call. -/
  effects : List Effect

namespace Turn

/-- The letters that are sent: answers if a letter arrived, else probes. -/
def letters (t : Turn) : List Letter :=
  (t.effects.filterMap Effect.timesync?).map
    (Letter.mk (if t.arrived.isSome then .answer else .probe))

/-- An answer is sent. -/
def answers (t : Turn) : Bool := t.letters.any (·.purpose == .answer)

/-- A letter of the given purpose arrived. -/
def brings (t : Turn) (purpose : Purpose) : Bool := t.arrived.any (·.purpose == purpose)

end Turn

/-- Two synchronizers, and all that happened so far. -/
structure Link where
  engine : Side → Synchronizer
  past : List Turn

/-- What can happen at an end of a link. -/
inductive Occasion where
  /-- The network brings a letter of the other end, by its number there. -/
  | arrival (number : Nat)
  | systemTime (m : Wire.SystemTime)
  | work
  | setLink (active : Bool)
  | reset
  deriving DecidableEq, Repr

/-- Something happens at one of the ends, where the clock shows what it shows. -/
structure Move where
  side : Side
  clock : Manual
  occasion : Occasion
  deriving DecidableEq, Repr

namespace Link

/-- Nothing has happened yet. -/
def new (settings : Side → Settings) : Link := ⟨fun side => .new (settings side), []⟩

/-- The letters that an end sent so far. -/
def letters (l : Link) (side : Side) : List Letter :=
  (l.past.filter (·.side == side)).flatMap Turn.letters

/-- The call that is made, and the letter that it is made for. There is none to make for a
letter that was never sent. -/
def call? (l : Link) (side : Side) : Occasion → Option (Call × Option Letter)
  | .arrival number =>
    (l.letters side.other)[number]?.map fun letter => (.timesync letter.message, some letter)
  | .systemTime m => some (.systemTime m, none)
  | .work => some (.work, none)
  | .setLink active => some (.setLink active, none)
  | .reset => some (.reset, none)

/-- Something happens at an end of the link. -/
def move (l : Link) (m : Move) : Link :=
  match l.call? m.side m.occasion with
  | none => l
  | some (call, arrived) =>
    let (engine, effects) := (l.engine m.side).perform ⟨m.clock, call⟩
    { engine := fun side => if side = m.side then engine else l.engine side
      past := l.past ++ [⟨m.side, ⟨m.clock, call⟩, arrived, effects⟩] }

/-- The link after moves. -/
def after (l : Link) : List Move → Link
  | [] => l
  | m :: moves => (l.move m).after moves

end Link

/-! ### What a history can be -/

/-- The turn can follow those before: a letter that arrived was sent by the other end, nothing
else is received, and what came of the call is what a synchronizer does. -/
structure Turn.Fits (before : List Turn) (t : Turn) : Prop where
  sent : ∀ letter, t.arrived = some letter →
    t.moment.call = .timesync letter.message ∧
      ∃ u ∈ before, u.side = t.side.other ∧ letter ∈ u.letters
  own : t.arrived = none → ∀ m, t.moment.call ≠ .timesync m
  performed : ∃ n : Synchronizer, t.effects = (n.perform t.moment).2

/-- Every turn of the history can follow those before it. -/
def Traced (past : List Turn) : Prop := ∀ before t, before ++ [t] <+: past → t.Fits before

namespace Traced

theorem nil : Traced [] := by
  intro before t hpre
  simp at hpre

theorem snoc {past : List Turn} (h : Traced past) {t : Turn} (ht : t.Fits past) :
    Traced (past ++ [t]) := by
  intro before u hpre
  rcases List.prefix_concat_iff.mp hpre with heq | hold
  · obtain ⟨rfl, htail⟩ := List.append_inj' heq rfl
    cases htail
    exact ht
  · exact h before u hold

theorem fits {past : List Turn} (h : Traced past) {t : Turn} (ht : t ∈ past) :
    ∃ before, before ++ [t] <+: past ∧ t.Fits before := by
  obtain ⟨before, after, rfl⟩ := List.append_of_mem ht
  have hpre : before ++ [t] <+: before ++ t :: after := by simp
  exact ⟨before, hpre, h before t hpre⟩

/-- What was before a turn can be traced back too. -/
theorem earlier {before past : List Turn} (h : Traced past) {t : Turn}
    (ht : before ++ [t] <+: past) : Traced before := by
  intro first u hu
  exact h first u ((hu.trans (List.prefix_append before [t])).trans ht)

end Traced

/-- **All that happens on a link can be traced back**: every letter that arrives was sent, and a
synchronizer did what was done. -/
theorem traced_after {l : Link} (h : Traced l.past) (moves : List Move) :
    Traced (l.after moves).past := by
  induction moves generalizing l with
  | nil => exact h
  | cons m moves ih =>
    apply ih
    unfold Link.move
    cases hc : l.call? m.side m.occasion with
    | none => exact h
    | some made =>
      obtain ⟨call, arrived⟩ := made
      refine h.snoc ⟨?_, ?_, l.engine m.side, rfl⟩
      · rintro letter rfl
        cases ho : m.occasion with
        | arrival number =>
          simp only [ho, Link.call?, Option.map_eq_some_iff] at hc
          obtain ⟨sent, hsent, heq⟩ := hc
          cases heq
          obtain ⟨u, hu, hletter⟩ := List.mem_flatMap.mp (List.mem_of_getElem? hsent)
          rw [List.mem_filter, beq_iff_eq] at hu
          exact ⟨rfl, u, hu.1, hu.2, hletter⟩
        | systemTime | work | setLink | reset =>
          rw [ho] at hc
          cases hc
      · rintro rfl message rfl
        cases ho : m.occasion with
        | arrival number =>
          simp only [ho, Link.call?, Option.map_eq_some_iff] at hc
          obtain ⟨sent, -, heq⟩ := hc
          cases heq
        | systemTime | work | setLink | reset =>
          rw [ho] at hc
          cases hc

/-! ### One turn -/

namespace Turn.Fits

variable {before : List Turn} {t : Turn} {letter : Letter}

/-- A probe is sent by a call for work, and carries the time of that call. -/
theorem probe (h : t.Fits before) (hl : letter ∈ t.letters) (hp : letter.purpose = .probe) :
    t.moment.call = .work ∧ letter.message = ⟨0, stamp t.moment.clock.steady⟩ := by
  obtain ⟨m, hm, rfl⟩ := List.mem_map.mp hl
  obtain ⟨n, hn⟩ := h.performed
  cases ha : t.arrived with
  | some arrived => simp [ha] at hp
  | none =>
    rw [hn] at hm
    exact n.timesync_perform (h.own ha) hm

/-- What is sent when a letter arrived is the answer to it, if it asks for one. -/
theorem letters_eq (h : t.Fits before) {arrived : Letter} (ha : t.arrived = some arrived) :
    t.letters =
      if arrived.message.isRequest then
        [⟨.answer, stamp t.moment.clock.steady, arrived.message.ts1⟩]
      else [] := by
  obtain ⟨n, hn⟩ := h.performed
  have hcall := (h.sent arrived ha).1
  have hperform : n.perform t.moment = n.onTimesync t.moment.clock.steady arrived.message := by
    unfold Synchronizer.perform
    rw [hcall]
  unfold letters
  rw [hn, hperform, n.timesync_onTimesync, ha]
  by_cases hq : arrived.message.isRequest = true
  · rw [if_pos hq, if_pos hq]
    rfl
  · rw [if_neg hq, if_neg hq]
    rfl

/-- An answer brings back the time of the letter that it answers, and the time of its own turn. -/
theorem echo (h : t.Fits before) (hl : letter ∈ t.letters) (hp : letter.purpose = .answer) :
    ∃ arrived, t.arrived = some arrived ∧ arrived.message.isRequest = true ∧
      letter.message = ⟨stamp t.moment.clock.steady, arrived.message.ts1⟩ := by
  cases ha : t.arrived with
  | none =>
    obtain ⟨m, -, rfl⟩ := List.mem_map.mp hl
    simp [ha] at hp
  | some arrived =>
    rw [h.letters_eq ha] at hl
    split at hl
    · rename_i hq
      cases List.mem_singleton.mp hl
      exact ⟨arrived, rfl, hq, rfl⟩
    · cases hl

/-- **An answer asks for an answer exactly if it was given while the clock showed zero.** -/
theorem isRequest_answer (h : t.Fits before) (hl : letter ∈ t.letters)
    (hp : letter.purpose = .answer) :
    letter.message.isRequest = true ↔ t.moment.clock.steady = 0 := by
  obtain ⟨arrived, -, -, hm⟩ := h.echo hl hp
  rw [hm, Wire.Timesync.isRequest, beq_iff_eq]
  exact stamp_eq_zero_iff _

end Turn.Fits

/-! ### Runs in which no answer is given at time zero -/

/-- No probe is answered while the clock of the answering end shows zero. -/
def Punctual (past : List Turn) : Prop :=
  ∀ t ∈ past, t.answers = true → t.moment.clock.steady ≠ 0

namespace Traced

variable {past : List Turn} {t : Turn}

theorem punctual_before {before : List Turn} (hz : Punctual past)
    (hpre : before ++ [t] <+: past) : Punctual before := by
  intro u hu
  exact hz u (hpre.subset (List.mem_append_left _ hu))

/-- A letter that asks for an answer was sent as a probe. -/
theorem purpose_of_isRequest (h : Traced past) (hz : Punctual past) (ht : t ∈ past)
    {letter : Letter} (hl : letter ∈ t.letters) (hq : letter.message.isRequest = true) :
    letter.purpose = .probe := by
  cases hp : letter.purpose with
  | probe => rfl
  | answer =>
    obtain ⟨before, -, hfits⟩ := h.fits ht
    have hanswers : t.answers = true :=
      List.any_eq_true.mpr ⟨letter, hl, by rw [hp]; rfl⟩
    exact absurd ((hfits.isRequest_answer hl hp).mp hq) (hz t ht hanswers)

/-- The letter that a turn answers was sent as a probe, by a call for work at the other end. -/
theorem probe_of_request (h : Traced past) (hz : Punctual past) (ht : t.Fits past)
    {arrived : Letter} (ha : t.arrived = some arrived)
    (hq : arrived.message.isRequest = true) :
    arrived.purpose = .probe ∧ ∃ u ∈ past, u.side = t.side.other ∧ arrived ∈ u.letters ∧
      u.moment.call = .work ∧ arrived.message = ⟨0, stamp u.moment.clock.steady⟩ := by
  obtain ⟨-, u, hu, hside, hletter⟩ := ht.sent arrived ha
  have hp := h.purpose_of_isRequest hz hu hletter hq
  obtain ⟨before, -, hfits⟩ := h.fits hu
  exact ⟨hp, u, hu, hside, hletter, hfits.probe hletter hp⟩

/-- A turn sends an answer only if it brings a probe, and then one. -/
theorem countP_answer_le (h : Traced past) (hz : Punctual past) (ht : t.Fits past) :
    t.letters.countP (·.purpose == .answer) ≤ if t.brings .probe then 1 else 0 := by
  cases ha : t.arrived with
  | none =>
    have hnone : t.letters.countP (·.purpose == .answer) = 0 := by
      rw [List.countP_eq_zero]
      intro letter hl hp
      obtain ⟨arrived, harrived, -, -⟩ := ht.echo hl (beq_iff_eq.mp hp)
      rw [ha] at harrived
      cases harrived
    omega
  | some arrived =>
    rw [ht.letters_eq ha]
    by_cases hq : arrived.message.isRequest = true
    · have hp := (h.probe_of_request hz ht ha hq).1
      have hbrings : t.brings .probe = true := by simp [Turn.brings, ha, hp]
      rw [if_pos hq, if_pos hbrings]
      exact Nat.le_refl 1
    · rw [if_neg hq]
      exact Nat.zero_le _

/-- There are no more answers than probes that arrived. -/
theorem countP_answers_le (h : Traced past) (hz : Punctual past) :
    (past.flatMap Turn.letters).countP (·.purpose == .answer) ≤
      past.countP (·.brings .probe) := by
  induction past using List.reverseRecOn with
  | nil => exact Nat.le_refl 0
  | append_singleton past t ih =>
    have hpre : past ++ [t] <+: past ++ [t] := List.prefix_refl _
    have hpast := ih (h.earlier hpre) (punctual_before hz hpre)
    have hturn := countP_answer_le (h.earlier hpre) (punctual_before hz hpre)
      (h past t hpre)
    rw [List.flatMap_append, List.countP_append, List.countP_append, List.countP_singleton]
    simp only [List.flatMap_cons, List.flatMap_nil, List.append_nil]
    omega

/-- A sample goes back to a probe of the end that takes it. -/
theorem probe_of_sample {before : List Turn} (h : Traced before) (hz : Punctual before)
    (ht : t.Fits before) {sample : Sample} (hs : t.moment.sample? = some sample) :
    ∃ m, t.moment.call = .timesync m ∧ ∃ u ∈ before, u.side = t.side ∧
      u.moment.call = .work ∧ m.ts1 = stamp u.moment.clock.steady ∧
      ⟨.probe, ⟨0, m.ts1⟩⟩ ∈ u.letters := by
  have hcall : ∃ m, t.moment.call = .timesync m ∧ m.isRequest = false := by
    unfold Moment.sample? at hs
    cases hc : t.moment.call with
    | timesync m =>
      simp only [hc] at hs
      split at hs
      · cases hs
      · rename_i hm
        exact ⟨m, rfl, by simp_all⟩
    | systemTime | work | setLink | reset =>
      rw [hc] at hs
      cases hs
  obtain ⟨m, hm, hanswer⟩ := hcall
  cases ha : t.arrived with
  | none => exact absurd hm (ht.own ha m)
  | some letter =>
    obtain ⟨hcall, u, hu, hside, hl⟩ := ht.sent letter ha
    obtain rfl : letter.message = m := by
      rw [hm] at hcall
      exact (Call.timesync.inj hcall).symm
    obtain ⟨first, hpre, hfits⟩ := h.fits hu
    cases hp : letter.purpose with
    | probe =>
      rw [(hfits.probe hl hp).2] at hanswer
      cases hanswer
    | answer =>
      -- what it answers is a letter of this end, and that was a probe
      obtain ⟨arrived, harrived, hq, hecho⟩ := hfits.echo hl hp
      obtain ⟨hpurpose, v, hv, hvside, hvl, hwork, hstamp⟩ :=
        (h.earlier hpre).probe_of_request (punctual_before hz hpre) hfits harrived hq
      have hts1 : letter.message.ts1 = stamp v.moment.clock.steady := by rw [hecho, hstamp]
      have hback : v.side = t.side := by
        rw [hvside, hside]
        cases t.side <;> rfl
      have hin : v ∈ before := hpre.subset (List.mem_append_left _ hv)
      refine ⟨letter.message, hm, v, hin, hback, hwork, hts1, ?_⟩
      rw [hts1, ← hstamp, ← hpurpose]
      exact hvl

end Traced

/-- **Answers end an exchange, as long as none is given at time zero.** Whatever the network does,
an answer asks for an answer exactly if the clock of its end showed zero when it was given. In a
run in which this never happens, a letter that was sent as an answer is no request to its receiver
and makes it send nothing, there are no more answers than arrivals of probes, and every sample
carries the time of a probe that the same end sent before. -/
theorem Link.no_reply_storm (settings : Side → Settings) (moves : List Move) :
    let past := ((new settings).after moves).past
    (∀ t ∈ past, ∀ letter ∈ t.letters, letter.purpose = .answer →
      (letter.message.isRequest = true ↔ t.moment.clock.steady = 0)) ∧
    (Punctual past →
      (∀ t ∈ past, ∀ letter, t.arrived = some letter → letter.purpose = .answer →
        letter.message.isRequest = false ∧ t.letters = []) ∧
      (past.flatMap Turn.letters).countP (·.purpose == .answer) ≤ past.countP (·.brings .probe) ∧
      ∀ before t, before ++ [t] <+: past → ∀ sample, t.moment.sample? = some sample →
        ∃ m, t.moment.call = .timesync m ∧ ∃ u ∈ before, u.side = t.side ∧
          u.moment.call = .work ∧ m.ts1 = stamp u.moment.clock.steady ∧
          ⟨.probe, ⟨0, m.ts1⟩⟩ ∈ u.letters) := by
  intro past
  have h : Traced past := traced_after Traced.nil moves
  refine ⟨?_, fun hz => ⟨?_, h.countP_answers_le hz, ?_⟩⟩
  · intro t ht letter hl hp
    obtain ⟨before, -, hfits⟩ := h.fits ht
    exact hfits.isRequest_answer hl hp
  · intro t ht letter ha hp
    obtain ⟨before, hpre, hfits⟩ := h.fits ht
    obtain ⟨-, u, hu, -, hl⟩ := hfits.sent letter ha
    have hq : letter.message.isRequest = false := by
      rw [Bool.eq_false_iff]
      intro hq
      have hprobe := (h.earlier hpre).purpose_of_isRequest
        (Traced.punctual_before hz hpre) hu hl hq
      rw [hp] at hprobe
      cases hprobe
    rw [hfits.letters_eq ha, hq]
    exact ⟨rfl, rfl⟩
  · intro before t hpre sample hs
    exact (h.earlier hpre).probe_of_sample (Traced.punctual_before hz hpre)
      (h before t hpre) hs

/-! ### The exchange of one probe -/

/-- The near end sends a probe at time 5. The far end answers it when its clock shows `answered`,
the near end gets the answer at time 7, and the far end what the near end made of it, if that is a
letter. -/
def Link.exchange (answered : UInt64) : List Move :=
  [⟨.near, ⟨5, 0⟩, .setLink true⟩, ⟨.near, ⟨5, 0⟩, .work⟩, ⟨.far, ⟨answered, 0⟩, .arrival 0⟩,
    ⟨.near, ⟨7, 0⟩, .arrival 0⟩, ⟨.far, ⟨9, 0⟩, .arrival 1⟩]

/-- Answered at time 6, the probe brings its sender a sample, and the exchange is over. -/
theorem Link.no_reply_storm_exchange :
    let past := ((new fun _ => {}).after (exchange 6)).past
    Punctual past ∧ past.any (·.brings .answer) = true ∧
      (∀ t ∈ past, ∀ letter, t.arrived = some letter → letter.purpose = .answer →
        letter.message.isRequest = false ∧ t.letters = []) ∧
      (past.flatMap Turn.letters).countP (·.purpose == .answer) ≤ past.countP (·.brings .probe) ∧
      ∀ before t, before ++ [t] <+: past → ∀ sample, t.moment.sample? = some sample →
        ∃ m, t.moment.call = .timesync m ∧ ∃ u ∈ before, u.side = t.side ∧
          u.moment.call = .work ∧ m.ts1 = stamp u.moment.clock.steady ∧
          ⟨.probe, ⟨0, m.ts1⟩⟩ ∈ u.letters := by
  have hz : Punctual ((new fun _ => {}).after (exchange 6)).past := by
    unfold Punctual
    decide
  exact ⟨hz, by decide, (no_reply_storm (fun _ => {}) (exchange 6)).2 hz⟩

/-- Answered at time zero, the probe starts a storm: the answer is answered, one probe arrived and
two answers were sent, and the far end takes a sample though it never sent a probe. -/
theorem Link.reply_storm_at_zero :
    let past := ((new fun _ => {}).after (exchange 0)).past
    past.any (fun t => t.brings .answer && t.answers) = true ∧
      past.countP (·.brings .probe) = 1 ∧
      (past.flatMap Turn.letters).countP (·.purpose == .answer) = 2 ∧
      past.any (fun t => t.side == .far && t.moment.sample?.isSome) = true ∧
      past.all (fun t => t.side == .near || t.letters.all (·.purpose == .answer)) = true := by
  decide

end Clock
end FlightLink
