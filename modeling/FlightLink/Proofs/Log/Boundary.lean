/-
# What a message start does to a stream

In front of the first message start of a chunk, bytes can only carry on the message in progress,
and in how many pieces they come makes no difference: what becomes of the phase and which frames
come out is an action of byte strings (`Phase.carryOn_append`). What carries this is that a step
that can be made is made too when more bytes follow (`Phase.step_feed`). From the start on,
nothing of what came before counts (`Phase.restart_fresh`). So the same chunk leads any two
streams to the same phase (`Stream.start_forgets`), and a chunk can be cut anywhere up to its
first start (`Stream.cut_before_start`). Only what is reported of lost bytes may differ.

Key definitions: `Phase.Step.feed`, `Phase.carryOn`, `Phase.settled`, `Hint.sub`, `Hint.behind`,
`Stream.heed`.
Key theorems: `Phase.step_feed`, `Phase.readOne_feed`, `Phase.carryOn_append`,
`Phase.restart_fresh`, `Phase.ingest_cut`, `Stream.start_forgets`, `Stream.cut_before_start`.
-/
import FlightLink.Proofs.Log.Call

namespace FlightLink
namespace Log

namespace Phase

/-! ### More bytes -/

theorem feed_feed (phase : Phase) (a b : Bytes) : (phase.feed a).feed b = phase.feed (a ++ b) := by
  cases phase <;> simp [feed]

theorem inProgress_feed {phase : Phase} (h : phase.inProgress = true) (bytes : Bytes) :
    (phase.feed bytes).inProgress = true := by
  cases phase with
  | awaitingHeader pending =>
    have hp : pending ≠ [] := by simpa [inProgress] using h
    simp [feed, inProgress, hp]
  | awaitingBody header body => rfl
  | resync => cases h

/-- What is read at once, when more bytes follow it. -/
def Step.feed (more : Bytes) : Step → Step
  | .header next => .header (next.feed more)
  | .frame f next => .frame f (next.feed more)
  | step => step

/-- **What can be read is read too when more bytes follow it.** -/
theorem step_feed {phase : Phase} (h : phase.step ≠ .stalled) (more : Bytes) :
    (phase.feed more).step = phase.step.feed more := by
  have hread := phase.reads_step
  generalize phase.step = step at hread h ⊢
  cases hread with
  | header rest hc =>
    rw [feed, List.append_assoc, step_header hc]
    rfl
  | frame rest hp =>
    rw [feed, List.append_assoc, step_frame hp]
    rfl
  | bogus rest hc =>
    rw [feed, List.append_assoc]
    simp only [Phase.step, Header.read_write, hc, Bool.false_eq_true, if_false, Step.feed]
  | stalled => exact absurd rfl h

/-! ### Reading one frame -/

/-- Behind a header its payload is read, or nothing. -/
theorem step_awaitingBody (header : Header) (body : Bytes) :
    (∃ f rest, step (awaitingBody header body) = .frame f (awaitingHeader rest)) ∨
      step (awaitingBody header body) = .stalled := by
  have hread := (awaitingBody header body).reads_step
  generalize step (awaitingBody header body) = step at hread ⊢
  cases hread with
  | frame rest _ => exact Or.inl ⟨_, rest, rfl⟩
  | stalled => exact Or.inr rfl

/-- A header leads into its payload, and reading goes on there. -/
theorem readOne_of_header {phase next : Phase} (h : phase.step = .header next) :
    (∃ header body, next = awaitingBody header body) ∧ phase.readOne = next.readOne := by
  have hread := phase.reads_step
  rw [h] at hread
  cases hread with
  | @header header rest _ =>
    refine ⟨⟨header, rest, rfl⟩, ?_⟩
    rcases step_awaitingBody header rest with ⟨f, more, hs⟩ | hs
    · simp only [readOne, h, hs]
    · simp only [readOne, h, hs]

/-- Without a header to be read first, a frame is found, with more bytes too; or no frame begins,
with more bytes neither; or more bytes are needed. -/
theorem readOne_feed_of_ne_header {phase : Phase} (h : ∀ next, phase.step ≠ .header next)
    (more : Bytes) :
    (∃ f rest, phase.readOne = (some f, awaitingHeader rest, .empty) ∧
        (phase.feed more).readOne = (some f, awaitingHeader (rest ++ more), .empty)) ∨
      (∃ header, phase.readOne = (none, resync, phase.refused header) ∧
        (phase.feed more).readOne = (none, resync, (phase.feed more).refused header)) ∨
      phase.readOne = (none, phase, .empty) := by
  have hread := phase.reads_step
  have hfeed : phase.step ≠ .stalled → _ := fun hne => step_feed hne more
  generalize hs : phase.step = step at hread hfeed
  cases hread with
  | header rest hc => exact absurd hs (h _)
  | @frame header payload rest _ =>
    have hfeed := hfeed Step.noConfusion
    refine Or.inl ⟨⟨header.tag, payload⟩, rest, ?_, ?_⟩
    · simp only [readOne, hs]
    · simp only [readOne, hfeed, Step.feed]
      rfl
  | @bogus header rest _ =>
    have hfeed := hfeed Step.noConfusion
    refine Or.inr (Or.inl ⟨header, ?_, ?_⟩)
    · simp only [readOne, hs]
    · simp only [readOne, hfeed, Step.feed]
  | stalled => exact Or.inr (Or.inr (by simp only [readOne, hs]))

/-- **Reading on to the end of the message in progress, in front of more bytes.** A frame is found
all the same, a header that no frame has is refused all the same, and if more bytes are needed
reading goes on where it stopped. -/
theorem readOne_feed (phase : Phase) (more : Bytes) :
    (∃ f rest, phase.readOne = (some f, awaitingHeader rest, .empty) ∧
        (phase.feed more).readOne = (some f, awaitingHeader (rest ++ more), .empty)) ∨
      (∃ lost lost' : Report, lost.frames = [] ∧ lost'.frames = [] ∧
        phase.readOne = (none, resync, lost) ∧ (phase.feed more).readOne = (none, resync, lost')) ∨
      ∃ next, (phase.inProgress = true → next.inProgress = true) ∧
        phase.readOne = (none, next, .empty) ∧
        (phase.feed more).readOne = (next.feed more).readOne := by
  by_cases h : ∃ next, phase.step = .header next
  · obtain ⟨next, hs⟩ := h
    obtain ⟨⟨header, body, hnext⟩, hone⟩ := readOne_of_header hs
    have hfeed := step_feed (by rw [hs]; exact Step.noConfusion) more
    rw [hs] at hfeed
    rw [hone, (readOne_of_header hfeed).2]
    have hne : ∀ later, next.step ≠ .header later := by
      intro later
      rw [hnext]
      rcases step_awaitingBody header body with ⟨f, rest, hb⟩ | hb
      · rw [hb]
        exact Step.noConfusion
      · rw [hb]
        exact Step.noConfusion
    rcases readOne_feed_of_ne_header hne more with hframe | ⟨bad, h1, h2⟩ | hmore
    · exact Or.inl hframe
    · exact Or.inr (Or.inl ⟨_, _, rfl, rfl, h1, h2⟩)
    · exact Or.inr (Or.inr ⟨next, fun _ => hnext ▸ rfl, hmore, rfl⟩)
  · rcases readOne_feed_of_ne_header (fun next hs => h ⟨next, hs⟩) more with
      hframe | ⟨bad, h1, h2⟩ | hmore
    · exact Or.inl hframe
    · exact Or.inr (Or.inl ⟨_, _, rfl, rfl, h1, h2⟩)
    · exact Or.inr (Or.inr ⟨phase, id, hmore, rfl⟩)

/-! ### In front of the first start -/

/-- What becomes of a phase, and which frames come out, when bytes come in which no message
starts. What is reported of lost bytes is left out. -/
def carryOn (phase : Phase) (bytes : Bytes) : Phase × List Frame :=
  ((phase.continueWith bytes).1, (phase.continueWith bytes).2.frames)

/-- In front of a start it is the same. -/
theorem leadUp_eq_carryOn (phase : Phase) (bytes : Bytes) :
    ((phase.leadUp bytes).1, (phase.leadUp bytes).2.frames) = phase.carryOn bytes := by
  unfold carryOn leadUp continueWith
  split <;> rfl

/-- Losing track or not, it is the same. -/
theorem carryOn_eq_complete (phase : Phase) {bytes : Bytes} (hb : bytes ≠ []) :
    phase.carryOn bytes = ((phase.complete bytes).1, (phase.complete bytes).2.frames) := by
  unfold carryOn continueWith
  split
  · rename_i h
    rw [h, complete, if_neg (by simpa using hb)]
    rfl
  · rfl

theorem carryOn_nil (phase : Phase) : phase.carryOn [] = (phase, []) := by
  unfold carryOn continueWith
  split
  · rename_i h
    rw [h]
    rfl
  · rfl

/-- Without a message in progress there is nothing to carry on. -/
theorem carryOn_idle {phase : Phase} (h : phase.inProgress = false) {bytes : Bytes}
    (hb : bytes ≠ []) : phase.carryOn bytes = (resync, []) := by
  rw [carryOn_eq_complete _ hb, complete, if_neg (by simpa using hb), h]
  rfl

/-- What reading on to the end of the message in progress leaves: track is lost if bytes are left
over. -/
def settled : Option Frame × Phase × Report → Phase × List Frame
  | (none, next, report) => (next, report.frames)
  | (some f, next, report) => (if next.buffered = 0 then next else resync, f :: report.frames)

theorem settled_frame (f : Frame) (rest : Bytes) :
    settled (some f, awaitingHeader rest, .empty) = (if rest = [] then fresh else resync, [f]) := by
  cases rest <;> rfl

/-- A message in progress is read on to its end. -/
theorem carryOn_inProgress {phase : Phase} (h : phase.inProgress = true) {bytes : Bytes}
    (hb : bytes ≠ []) : phase.carryOn bytes = settled (phase.feed bytes).readOne := by
  rw [carryOn_eq_complete _ hb, complete, if_neg (by simpa using hb), if_pos h]
  obtain ⟨frame, next, report⟩ := (phase.feed bytes).readOne
  cases frame with
  | none => rfl
  | some f =>
    dsimp only [settled]
    split
    · rfl
    · show (resync, [f] ++ report.frames ++ []) = _
      rw [List.append_nil]
      rfl

/-- **It does not matter in how many pieces bytes come in which no message starts.** -/
theorem carryOn_append (phase : Phase) (a b : Bytes) :
    phase.carryOn (a ++ b) = (((phase.carryOn a).1.carryOn b).1,
      (phase.carryOn a).2 ++ ((phase.carryOn a).1.carryOn b).2) := by
  by_cases ha : a = []
  · subst ha
    rw [carryOn_nil]
    rfl
  by_cases hb : b = []
  · subst hb
    rw [List.append_nil, carryOn_nil, List.append_nil]
  have hab : a ++ b ≠ [] := List.append_ne_nil_of_left_ne_nil ha b
  have hlost : resync.carryOn b = (resync, []) := carryOn_idle rfl hb
  cases hp : phase.inProgress with
  | false => rw [carryOn_idle hp hab, carryOn_idle hp ha, hlost, List.append_nil]
  | true =>
    have hone := (phase.feed a).readOne_feed b
    rw [feed_feed] at hone
    rw [carryOn_inProgress hp hab, carryOn_inProgress hp ha]
    rcases hone with ⟨f, rest, h1, h2⟩ | ⟨lost, lost', hl, hl', h1, h2⟩ | ⟨next, hin, h1, h2⟩
    · -- the first piece completes the message, so the second one is left over
      have hrest : rest ++ b ≠ [] := List.append_ne_nil_of_right_ne_nil rest hb
      rw [h1, h2, settled_frame, settled_frame, if_neg hrest]
      by_cases hr : rest = []
      · rw [if_pos hr, carryOn_idle rfl hb, List.append_nil]
      · rw [if_neg hr, hlost, List.append_nil]
    · -- the first piece loses track
      rw [h1, h2, settled, settled, hl, hl', hlost, List.append_nil]
    · -- the first piece is kept, and reading goes on with the second one
      rw [h1, h2, settled, carryOn_inProgress (hin (inProgress_feed hp a)) hb]
      rfl

/-- At most one frame comes out: the one in progress. -/
theorem exists_lead (phase : Phase) (bytes : Bytes) :
    ∃ lead : Option Frame, (phase.carryOn bytes).2 = lead.toList := by
  by_cases hb : bytes = []
  · exact ⟨none, by rw [hb, carryOn_nil]; rfl⟩
  cases hp : phase.inProgress with
  | false => exact ⟨none, by rw [carryOn_idle hp hb]; rfl⟩
  | true =>
    rw [carryOn_inProgress hp hb]
    rcases (phase.feed bytes).readOne_feed [] with
      ⟨f, rest, h, -⟩ | ⟨lost, -, hl, -, h, -⟩ | ⟨next, -, h, -⟩
    · exact ⟨some f, by rw [h, settled_frame]; rfl⟩
    · exact ⟨none, by rw [h, settled, hl]; rfl⟩
    · exact ⟨none, by rw [h]; rfl⟩

/-! ### From the first start on -/

/-- **From a start on it does not matter what was before.** -/
theorem restart_fresh (phase : Phase) (bytes : Bytes) :
    (phase.restart bytes).1 = (fresh.restart bytes).1 ∧
      (phase.restart bytes).2.frames = (fresh.restart bytes).2.frames := by
  unfold restart
  cases phase.inProgress <;> exact ⟨rfl, rfl⟩

/-- A start parts the bytes of a chunk. -/
theorem ingest_some_eq (phase : Phase) (bytes : Bytes) (offset : Nat) :
    (phase.ingest bytes (some offset)).1 = (fresh.restart (bytes.drop offset)).1 ∧
      (phase.ingest bytes (some offset)).2.frames =
        (phase.carryOn (bytes.take offset)).2 ++ (fresh.restart (bytes.drop offset)).2.frames := by
  obtain ⟨hphase, hframes⟩ :=
    (phase.leadUp (bytes.take offset)).1.restart_fresh (bytes.drop offset)
  refine ⟨hphase, ?_⟩
  rw [← leadUp_eq_carryOn, ← hframes]
  rfl

/-- **The bytes of a chunk may be cut anywhere up to the first start.** -/
theorem ingest_cut (phase : Phase) (bytes : Bytes) {offset : Option Nat} {k : Nat}
    (h : ∀ o ∈ offset, k ≤ o) :
    (phase.ingest bytes offset).1 =
        ((phase.carryOn (bytes.take k)).1.ingest (bytes.drop k) (offset.map (· - k))).1 ∧
      (phase.ingest bytes offset).2.frames = (phase.carryOn (bytes.take k)).2 ++
        ((phase.carryOn (bytes.take k)).1.ingest (bytes.drop k) (offset.map (· - k))).2.frames := by
  cases offset with
  | none =>
    have hcut := phase.carryOn_append (bytes.take k) (bytes.drop k)
    rw [List.take_append_drop] at hcut
    exact Prod.mk.inj hcut
  | some o =>
    have hk : k + (o - k) = o := Nat.add_sub_cancel' (h o rfl)
    have hcut := phase.carryOn_append (bytes.take k) ((bytes.drop k).take (o - k))
    rw [← List.take_add, hk] at hcut
    obtain ⟨hphase, hframes⟩ := phase.ingest_some_eq bytes o
    obtain ⟨hphase', hframes'⟩ :=
      (phase.carryOn (bytes.take k)).1.ingest_some_eq (bytes.drop k) (o - k)
    rw [List.drop_drop, hk] at hphase' hframes'
    refine ⟨hphase.trans hphase'.symm, ?_⟩
    rw [hframes, hcut, List.append_assoc, ← hframes']
    rfl

end Phase

/-! ### Hints -/

namespace Hint

/-- A hint counted from so many bytes later on; none of what it passes over is counted. -/
def sub (hint : UInt8) (k : Nat) : UInt8 := UInt8.ofNat (hint.toNat - k)

/-- The hint of what is left of a chunk without its first `k` bytes. -/
def behind (hint : UInt8) (k : Nat) : UInt8 :=
  if hint = Wire.LogData.noMessageStart then hint else sub hint k

@[simp] theorem toNat_sub (hint : UInt8) (k : Nat) : (sub hint k).toNat = hint.toNat - k := by
  have hlt := hint.toNat_lt
  rw [sub, UInt8.toNat_ofNat', Nat.mod_eq_of_lt (by omega)]

/-- A place where a message starts stays one. -/
theorem sub_ne {hint : UInt8} (h : hint ≠ Wire.LogData.noMessageStart) (k : Nat) :
    sub hint k ≠ Wire.LogData.noMessageStart := by
  intro he
  have hk := congrArg UInt8.toNat he
  rw [toNat_sub] at hk
  have hmax : Wire.LogData.noMessageStart.toNat = 255 := rfl
  have hlt := hint.toNat_lt
  exact h (UInt8.toNat_inj.mp (by omega))

end Hint

namespace Stream

/-! ### A call -/

/-- The stream that has heeded the number of a chunk: at a gap it loses track. -/
def heed (s : Stream) (sequence : Option UInt16) : Stream :=
  match s.arrival sequence with
  | .gap _ _ => { s.loseTrack with lastSequence := sequence }
  | _ => { s with lastSequence := sequence.or s.lastSequence }

theorem headerLeft_heed {s : Stream} (h : s.headerLeft = 0) (sequence : Option UInt16) :
    (s.heed sequence).headerLeft = 0 := by
  unfold heed
  split
  · rfl
  · exact h

theorem lastSequence_heed (s : Stream) (sequence : Option UInt16) :
    (s.heed sequence).lastSequence = sequence.or s.lastSequence := by
  cases sequence with
  | none => rw [heed, s.arrival_none]
  | some n =>
    unfold heed
    split <;> rfl

/-- A chunk that is no duplicate is taken in by the stream that has heeded its number. -/
theorem intake_heed {s : Stream} {c : Intake} (h : ∀ n ∈ c.sequence, s.lastSequence ≠ some n) :
    (s.intake c).1 = ((s.heed c.sequence).accept c.data c.hint).1 ∧
      (s.intake c).2.frames = ((s.heed c.sequence).accept c.data c.hint).2.frames := by
  unfold heed
  cases ha : s.arrival c.sequence with
  | duplicate n =>
    obtain ⟨hn, hlast⟩ := s.arrival_duplicate_iff.mp ha
    exact absurd hlast (h n hn)
  | inOrder =>
    rw [intake_inOrder ha]
    exact ⟨rfl, rfl⟩
  | gap expected actual =>
    rw [intake_gap ha]
    exact ⟨rfl, rfl⟩

/-- What a chunk without a message start gives is what its bytes carry on. -/
theorem ingest_noStart {s : Stream} (hs : s.headerLeft = 0) (data : Bytes)
    {sequence : Option UInt16} (hseq : ∀ n ∈ sequence, s.lastSequence ≠ some n) :
    (s.ingest data Wire.LogData.noMessageStart sequence).2.frames =
      ((s.heed sequence).phase.carryOn data).2 := by
  have hintake := (intake_heed (c := ⟨data, Wire.LogData.noMessageStart, sequence⟩) hseq).2
  rw [accept_behind (headerLeft_heed hs sequence) fun h => absurd rfl h, Intake.start?_zero,
    if_pos rfl] at hintake
  exact hintake

/-- A chunk with a message start gives what the bytes in front of it carry on, and then what a new
stream gives. -/
theorem ingest_start {s : Stream} (hs : s.headerLeft = 0) {data : Bytes} {hint : UInt8}
    (hstart : hint ≠ Wire.LogData.noMessageStart) (hwithin : hint.toNat ≤ data.length)
    {sequence : Option UInt16} (hseq : ∀ n ∈ sequence, s.lastSequence ≠ some n) :
    (s.ingest data hint sequence).1 =
        ⟨0, sequence.or s.lastSequence, (Phase.fresh.restart (data.drop hint.toNat)).1⟩ ∧
      (s.ingest data hint sequence).2.frames =
        ((s.heed sequence).phase.carryOn (data.take hint.toNat)).2 ++
          (Phase.fresh.restart (data.drop hint.toNat)).2.frames := by
  obtain ⟨hstream, hframes⟩ := intake_heed (c := ⟨data, hint, sequence⟩) hseq
  have hleft := headerLeft_heed hs sequence
  rw [accept_behind hleft fun _ => hwithin, Intake.start?_zero, if_neg hstart] at hstream hframes
  obtain ⟨hphase, hgives⟩ := (s.heed sequence).phase.ingest_some_eq data hint.toNat
  refine ⟨hstream.trans ?_, hframes.trans hgives⟩
  rw [← hphase, ← s.lastSequence_heed sequence, ← hleft]
  rfl

/-- **A message start erases history.** A chunk with a message start that is no duplicate leads any
stream, behind its file header, to what a new stream comes to with the bytes from the start on:
the frames are the same, after one frame at most that the bytes in front of the start give alone,
and nothing of what came before is left but the number of the last chunk. So any two streams frame
the bytes from the start on alike. -/
theorem start_forgets {s t : Stream} (hs : s.headerLeft = 0) (ht : t.headerLeft = 0)
    {data : Bytes} {hint : UInt8} (hstart : hint ≠ Wire.LogData.noMessageStart)
    (hwithin : hint.toNat ≤ data.length) {m n : Option UInt16}
    (hm : ∀ k ∈ m, s.lastSequence ≠ some k) (hn : ∀ k ∈ n, t.lastSequence ≠ some k) :
    ∃ lead lead' : Option Frame,
      let front := data.take hint.toNat
      let anew := (Stream.new 0).ingest (data.drop hint.toNat) 0 none
      (s.ingest front Wire.LogData.noMessageStart m).2.frames = lead.toList ∧
      (t.ingest front Wire.LogData.noMessageStart n).2.frames = lead'.toList ∧
      (s.ingest data hint m).2.frames = lead.toList ++ anew.2.frames ∧
      (t.ingest data hint n).2.frames = lead'.toList ++ anew.2.frames ∧
      (s.ingest data hint m).1 = { anew.1 with lastSequence := m.or s.lastSequence } ∧
      (t.ingest data hint n).1 = { anew.1 with lastSequence := n.or t.lastSequence } := by
  obtain ⟨lead, hlead⟩ := (s.heed m).phase.exists_lead (data.take hint.toNat)
  obtain ⟨lead', hlead'⟩ := (t.heed n).phase.exists_lead (data.take hint.toNat)
  obtain ⟨hstream, hframes⟩ := ingest_start hs hstart hwithin hm
  obtain ⟨hstream', hframes'⟩ := ingest_start ht hstart hwithin hn
  refine ⟨lead, lead', ?_⟩
  rw [← hlead, ← hlead', ingest_new]
  exact ⟨ingest_noStart hs _ hm, ingest_noStart ht _ hn, hframes, hframes', hstream, hstream'⟩

/-- One stream is within a frame; the other one has lost track, and chunks are missing besides. -/
theorem start_forgets_midway :
    let s := (Stream.new 0).after [⟨[3, 0, 67, 1], 0, some 1⟩]
    let t := (Stream.new 0).after [⟨[9], 255, some 4⟩]
    let data : Bytes := [2, 3, 2, 0, 79, 7, 0, 9]
    (s.headerLeft = 0 ∧ s.phase = .awaitingBody ⟨3, 67⟩ [1] ∧ s.lastSequence ≠ some 2) ∧
      (t.headerLeft = 0 ∧ t.phase = .resync ∧ t.lastSequence ≠ some 7) ∧
      (s.ingest data 2 (some 2)).2.frames = [⟨67, [1, 2, 3]⟩, ⟨79, [7, 0]⟩] ∧
      (t.ingest data 2 (some 7)).2.frames = [⟨79, [7, 0]⟩] ∧
      (s.ingest data 2 (some 2)).1 = ⟨0, some 2, .awaitingHeader [9]⟩ ∧
      (t.ingest data 2 (some 7)).1 = ⟨0, some 7, .awaitingHeader [9]⟩ := by
  intro s t data
  have hs : s.headerLeft = 0 ∧ s.phase = .awaitingBody ⟨3, 67⟩ [1] ∧ s.lastSequence ≠ some 2 := by
    decide
  have ht : t.headerLeft = 0 ∧ t.phase = .resync ∧ t.lastSequence ≠ some 7 := by decide
  have hwithin : (2 : UInt8).toNat ≤ data.length := by decide
  obtain ⟨lead, lead', hlead, hlead', hframes, hframes', hstream, hstream'⟩ :=
    start_forgets hs.1 ht.1 (by decide) hwithin (m := some 2) (n := some 7)
      (fun k hk => Option.mem_some_iff.mp hk ▸ hs.2.2)
      (fun k hk => Option.mem_some_iff.mp hk ▸ ht.2.2)
  rw [hframes, hframes', hstream, hstream', ← hlead, ← hlead']
  exact ⟨hs, ht, by decide, by decide, by decide, by decide⟩

/-- The start of a chunk whose first bytes are cut off. -/
theorem start?_behind (data : Bytes) (hint : UInt8) (k : Nat) :
    (Intake.mk (data.drop k) (Hint.behind hint k) none).start? 0 =
      ((Intake.mk data hint none).start? 0).map (· - k) := by
  rw [Intake.start?_zero, Intake.start?_zero, Hint.behind]
  by_cases hn : hint = Wire.LogData.noMessageStart
  · simp [hn]
  · simp [hn, Hint.sub_ne hn]

/-- A chunk without a number, behind the file header. -/
theorem intake_behind {s : Stream} (hs : s.headerLeft = 0) (data : Bytes) (hint : UInt8)
    (h : (Intake.mk data hint none).Sensible) :
    s.intake ⟨data, hint, none⟩ = s.takeIn data ((Intake.mk data hint none).start? 0) := by
  rw [intake_unnumbered]
  exact accept_behind hs h

/-- **A chunk may be cut anywhere up to its first message start.** The two pieces, of which the
first one tells no start and the second one the same start, give the same frames and lead to the
same stream, whatever the bytes are. -/
theorem cut_before_start {s : Stream} (hs : s.headerLeft = 0) (data : Bytes) {hint : UInt8}
    {k : Nat}
    (hk : hint ≠ Wire.LogData.noMessageStart → k ≤ hint.toNat ∧ hint.toNat ≤ data.length) :
    s.after [⟨data, hint, none⟩] =
        s.after [⟨data.take k, Wire.LogData.noMessageStart, none⟩,
          ⟨data.drop k, Hint.behind hint k, none⟩] ∧
      s.emitted [⟨data, hint, none⟩] =
        s.emitted [⟨data.take k, Wire.LogData.noMessageStart, none⟩,
          ⟨data.drop k, Hint.behind hint k, none⟩] := by
  have hwhole := intake_behind hs data hint fun hn => (hk hn).2
  have hfirst := intake_behind hs (data.take k) Wire.LogData.noMessageStart
    fun hn => absurd rfl hn
  rw [Intake.start?_zero, if_pos rfl] at hfirst
  have hsensible : (Intake.mk (data.drop k) (Hint.behind hint k) none).Sensible := by
    intro hn
    have hstart : hint ≠ Wire.LogData.noMessageStart := by
      rintro rfl
      exact hn rfl
    dsimp only
    rw [Hint.behind, if_neg hstart, Hint.toNat_sub, List.length_drop]
    exact Nat.sub_le_sub_right (hk hstart).2 k
  have hsecond := intake_behind (s := (s.takeIn (data.take k) none).1) hs _ _ hsensible
  rw [start?_behind] at hsecond
  have hbefore : ∀ o ∈ (Intake.mk data hint none).start? 0, k ≤ o := by
    intro o ho
    rw [Intake.start?_zero] at ho
    split at ho
    · cases ho
    · rename_i hstart
      cases ho
      exact (hk hstart).1
  obtain ⟨hphase, hframes⟩ := s.phase.ingest_cut data hbefore
  simp only [after, emitted_cons, hwhole, hfirst, hsecond]
  refine ⟨?_, ?_⟩
  · exact congrArg (Stream.mk s.headerLeft s.lastSequence) hphase
  · rw [← List.append_assoc]
    exact congrArg (· ++ []) hframes

/-- The first piece ends behind the frame in progress, with a byte that belongs to none. -/
theorem cut_before_start_misaligned :
    let s := (Stream.new 0).after [⟨[3, 0, 67, 1], 0, none⟩]
    let data : Bytes := [2, 3, 9, 9, 2, 0, 79, 7]
    s.headerLeft = 0 ∧ 3 ≤ (4 : UInt8).toNat ∧ (4 : UInt8).toNat ≤ data.length ∧
      s.after [⟨[2, 3, 9], 255, none⟩, ⟨[9, 2, 0, 79, 7], 1, none⟩] =
        ⟨0, none, .awaitingBody ⟨2, 79⟩ [7]⟩ ∧
      s.emitted [⟨[2, 3, 9], 255, none⟩, ⟨[9, 2, 0, 79, 7], 1, none⟩] = [⟨67, [1, 2, 3]⟩] := by
  intro s data
  have hs : s.headerLeft = 0 := by decide
  have hk : 3 ≤ (4 : UInt8).toNat ∧ (4 : UInt8).toNat ≤ data.length := by decide
  obtain ⟨hafter, hemitted⟩ := cut_before_start hs data fun _ => hk
  refine ⟨hs, hk.1, hk.2, ?_, ?_⟩
  · exact hafter.symm.trans (by decide)
  · exact hemitted.symm.trans (by decide)

end Stream

end Log
end FlightLink
