/-
# The buffer of a stream

A stream with a buffer (`ByteStream`) does what `Stream` does, whose phase is both state and
bytes. Laid out, a phase is a state and the bytes that go with it (`Stream.laidOut`), and to take
a step, to read on, to take in a chunk and to run is the same before laying out and after it. So
no run fails at a cut, and the pairs of a state and a buffer that runs lead to are phases. What
carries this are the calls that change the state by hand. Bytes that continue no message leave
the buffer as it is, and it is empty then: a stream that waits for a header and has none of it is
all that is neither lost nor in progress.

Key definitions: `Phase.state`, `Phase.kept`, `Stream.laidOut`, `ByteStream.run?`.
Key theorems: `Phase.step?_laidOut`, `Phase.drive?_laidOut`, `Phase.complete?_laidOut`,
`Phase.place?_laidOut`, `Stream.ingest?_laidOut`, `Stream.run?_laidOut`.
-/
import FlightLink.Log.ByteStream
import FlightLink.Proofs.Log.Boundary

namespace FlightLink
namespace Log

/-! ### Laying out -/

namespace Phase

def state : Phase → ByteStream.State
  | awaitingHeader _ => .awaitingHeader
  | awaitingBody header _ => .awaitingBody header
  | resync => .resync

/-- The bytes kept for the message in progress. -/
def kept : Phase → Bytes
  | awaitingHeader pending => pending
  | awaitingBody _ body => body
  | resync => []

@[simp] theorem length_kept (phase : Phase) : phase.kept.length = phase.buffered := by
  cases phase <;> rfl

end Phase

/-- The stream with its phase taken apart into a state and a buffer. -/
def Stream.laidOut (s : Stream) : ByteStream :=
  ⟨s.phase.state, s.phase.kept, s.headerLeft, s.lastSequence⟩

theorem Stream.laidOut_new (fileHeader : Nat) :
    (Stream.new fileHeader).laidOut = ByteStream.new fileHeader := rfl

/-- Track is lost alike. -/
theorem Stream.resync_laidOut (s : Stream) :
    s.laidOut.resync = (s.loseTrack.laidOut, ⟨[], s.phase.dropped⟩) := by
  refine Prod.ext rfl ?_
  unfold ByteStream.resync Phase.dropped
  simp only [laidOut, ← s.phase.length_kept, List.length_eq_zero_iff, List.isEmpty_iff]
  split <;> rfl

/-! ### Reading on, a step at a time -/

namespace ByteStream

variable {b next last : ByteStream} {report more : Report}

theorem drive?_of_stalled (h : b.step? = some (.stalled, next, report)) :
    b.drive? = some (next, report) := by
  rw [drive?]
  split <;> rename_i heq <;> rw [h] at heq <;> cases heq
  rfl

theorem drive?_of_step {step : Step} (h : b.step? = some (step, next, report))
    (hs : step ≠ .stalled) (hd : next.drive? = some (last, more)) :
    b.drive? = some (last, report ++ more) := by
  rw [drive?]
  split <;> rename_i heq <;> rw [h] at heq <;> cases heq
  rw [dif_neg hs, hd]
  rfl

theorem step?_bogus {header : Header} {rest : Bytes} (hs : b.state = .awaitingHeader)
    (hr : Header.read? b.buffer = some (header, rest)) (hc : header.credible = false) :
    b.step? = some (.stalled, b.resync.1,
      .of (.invalidHeader header.tag header.size) ++ b.resync.2) := by
  simp [step?, hs, hr, hc]

theorem finish?_of_frame (h : b.step? = some (.frame, next, report)) :
    b.finish? = some (true, next, report) := by
  rw [finish?]
  split <;> rename_i heq <;> rw [h] at heq <;> cases heq
  rfl

theorem finish?_of_stalled (h : b.step? = some (.stalled, next, report)) :
    b.finish? = some (false, next, report) := by
  rw [finish?]
  split <;> rename_i heq <;> rw [h] at heq <;> cases heq
  rfl

theorem finish?_of_header {found : Bool} (h : b.step? = some (.header, next, report))
    (hf : next.finish? = some (found, last, more)) :
    b.finish? = some (found, last, report ++ more) := by
  rw [finish?]
  split <;> rename_i heq <;> rw [h] at heq <;> cases heq
  rw [hf]
  rfl

end ByteStream

namespace Phase

variable (last : Option UInt16)

/-- The phase laid out behind the file header. -/
abbrev laidOut (phase : Phase) : ByteStream := (Stream.mk 0 last phase).laidOut

/-- What is read from a phase, laid out. -/
def Step.laidOut (phase : Phase) : Step → ByteStream.Step × ByteStream × Report
  | .header next => (.header, next.laidOut last, .empty)
  | .frame f next => (.frame, next.laidOut last, ⟨[f], []⟩)
  | .bogus found => (.stalled, resync.laidOut last, phase.refused found)
  | .stalled => (.stalled, phase.laidOut last, .empty)

/-- **A step reads the same off the buffer**, and the bytes that it cuts off are there. -/
theorem step?_laidOut (phase : Phase) :
    (phase.laidOut last).step? = some (phase.step.laidOut last phase) := by
  cases phase with
  | awaitingHeader pending =>
    cases hr : Header.read? pending with
    | none => simp [ByteStream.step?, Stream.laidOut, state, kept, step, Step.laidOut, hr]
    | some r =>
      obtain ⟨header, rest⟩ := r
      have hcut : pending.cut? Header.length = some (header.write, rest) := by
        rw [Header.write_of_read? hr, ← Frame.length_write header, Bytes.cut?_of_le (by simp),
          List.take_left, List.drop_left]
      have hlost := (Stream.mk 0 last (awaitingHeader pending)).resync_laidOut
      cases hc : header.credible with
      | true =>
        simp [ByteStream.step?, Stream.laidOut, state, kept, step, Step.laidOut, hr, hc, hcut]
      | false =>
        have hbogus : step (awaitingHeader pending) = .bogus header := by simp [step, hr, hc]
        rw [ByteStream.step?_bogus rfl hr hc, hlost, hbogus]
        rfl
  | awaitingBody header body =>
    by_cases hl : body.length < header.size.toNat
    · rw [step_body hl]
      exact if_pos hl
    · have hle : header.size.toNat ≤ body.length := Nat.le_of_not_lt hl
      have htake : ¬ (body.take header.size.toNat).length < header.size.toNat := by
        rw [List.length_take, Nat.min_eq_left hle]
        exact Nat.lt_irrefl _
      simp only [ByteStream.step?, Stream.laidOut, state, kept, step, Step.laidOut, if_neg hl,
        if_neg htake, Bytes.cut?_of_le hle]
      rfl
  | resync => rfl

/-- **Reading on is the same off the buffer**, when there are steps enough. -/
theorem drive?_laidOut : ∀ (steps : Nat) (phase : Phase), (phase.laidOut last).work < steps →
    (phase.laidOut last).drive? =
      some ((drive steps phase).1.laidOut last, (drive steps phase).2)
  | 0, _, h => absurd h (Nat.not_lt_zero _)
  | steps + 1, phase, h => by
    have hstep := phase.step?_laidOut last
    rw [drive]
    cases hs : phase.step with
    | header next =>
      rw [hs] at hstep
      have hless := ByteStream.work_step? hstep ByteStream.Step.noConfusion
      exact ByteStream.drive?_of_step hstep ByteStream.Step.noConfusion
        (drive?_laidOut steps next (by omega))
    | frame frame next =>
      rw [hs] at hstep
      have hless := ByteStream.work_step? hstep ByteStream.Step.noConfusion
      exact ByteStream.drive?_of_step hstep ByteStream.Step.noConfusion
        (drive?_laidOut steps next (by omega))
    | bogus header =>
      rw [hs] at hstep
      exact ByteStream.drive?_of_stalled hstep
    | stalled =>
      rw [hs] at hstep
      exact ByteStream.drive?_of_stalled hstep

theorem work_laidOut_lt (phase : Phase) : (phase.laidOut last).work < phase.stepsToRead := by
  cases phase <;> simp [ByteStream.work, Stream.laidOut, state, kept, stepsToRead, buffered]

/-- Reading to the end of the message in progress is the same off the buffer. -/
theorem finish?_laidOut (phase : Phase) :
    (phase.laidOut last).finish? = some (phase.readOne.1.isSome, phase.readOne.2.1.laidOut last,
      ⟨phase.readOne.1.toList, []⟩ ++ phase.readOne.2.2) := by
  have hstep := phase.step?_laidOut last
  cases hs : phase.step with
  | header next =>
    obtain ⟨⟨header, body, rfl⟩, hone⟩ := readOne_of_header hs
    have hbody := (awaitingBody header body).step?_laidOut last
    rw [hs] at hstep
    rw [hone]
    rcases step_awaitingBody header body with ⟨f, rest, hb⟩ | hb
    · have hread : readOne (awaitingBody header body) = (some f, awaitingHeader rest, .empty) := by
        simp only [readOne, hb]
      rw [hb] at hbody
      rw [hread, ByteStream.finish?_of_header hstep (ByteStream.finish?_of_frame hbody)]
      rfl
    · have hread :
          readOne (awaitingBody header body) = (none, awaitingBody header body, .empty) := by
        simp only [readOne, hb]
      rw [hb] at hbody
      rw [hread, ByteStream.finish?_of_header hstep (ByteStream.finish?_of_stalled hbody)]
      rfl
  | frame frame next =>
    rw [hs] at hstep
    rw [readOne, hs]
    exact ByteStream.finish?_of_frame hstep
  | bogus header =>
    rw [hs] at hstep
    rw [readOne, hs]
    exact ByteStream.finish?_of_stalled hstep
  | stalled =>
    rw [hs] at hstep
    rw [readOne, hs]
    exact ByteStream.finish?_of_stalled hstep

/-! ### The bytes of a chunk -/

theorem inProgress_laidOut (phase : Phase) :
    (phase.laidOut last).inProgress = phase.inProgress := by
  cases phase <;> rfl

theorem state_eq_resync {phase : Phase} : phase.state = .resync ↔ phase = resync := by
  cases phase <;> simp [state]

/-- More bytes for the message in progress go into the buffer. -/
theorem laidOut_feed {phase : Phase} (h : phase ≠ resync) (bytes : Bytes) :
    { phase.laidOut last with buffer := (phase.laidOut last).buffer ++ bytes } =
      (phase.feed bytes).laidOut last := by
  cases phase with
  | awaitingHeader pending => rfl
  | awaitingBody header body => rfl
  | resync => exact absurd rfl h

/-- Nothing is kept when no message is in progress, so that the buffer need not be cleared. -/
theorem kept_of_not_inProgress {phase : Phase} (h : phase.inProgress = false) :
    phase.kept = [] := by
  cases phase with
  | awaitingHeader pending => simpa [inProgress, kept] using h
  | awaitingBody header body => cases h
  | resync => rfl

/-- **Bytes that can only complete the message in progress are taken in alike.** -/
theorem complete?_laidOut (phase : Phase) (bytes : Bytes) :
    (phase.laidOut last).complete? bytes =
      some ((phase.complete bytes).1.laidOut last, (phase.complete bytes).2) := by
  unfold ByteStream.complete? complete
  by_cases he : bytes.isEmpty = true
  · rw [if_pos he, if_pos he]
  rw [if_neg he, if_neg he, inProgress_laidOut]
  cases hp : phase.inProgress with
  | false =>
    have hkept := kept_of_not_inProgress hp
    simp only [Bool.false_eq_true, if_false, Stream.laidOut, hkept]
    rfl
  | true =>
    have hne : phase ≠ resync := by
      rintro rfl
      cases hp
    rw [if_pos rfl, if_pos rfl, laidOut_feed last hne, finish?_laidOut]
    obtain ⟨frame, next, report⟩ := (phase.feed bytes).readOne
    cases frame with
    | none => rfl
    | some f =>
      have hkept : (next.laidOut last).buffer.isEmpty = decide (next.buffered = 0) := by
        rw [← next.length_kept, Bool.eq_iff_iff, List.isEmpty_iff, decide_eq_true_iff,
          List.length_eq_zero_iff]
        rfl
      have hlength : (next.laidOut last).buffer.length = next.buffered := next.length_kept
      simp only [Option.bind_eq_bind, Option.bind_some, Option.isSome_some, Bool.true_and, hkept,
        hlength, Bool.not_eq_true', decide_eq_false_iff_not]
      by_cases hz : next.buffered = 0
      · rw [if_neg (not_not_intro hz), if_pos hz]
        rfl
      · rw [if_pos hz, if_neg hz]
        rfl

/-- At a message start everything kept is given up, and reported unless track was lost before. -/
theorem realign_laidOut (phase : Phase) :
    (phase.laidOut last).realign =
      (fresh.laidOut last, if phase.inProgress then .of (.misaligned phase.held) else .empty) := by
  cases phase with
  | awaitingHeader pending => rfl
  | awaitingBody header body =>
    simp only [ByteStream.realign, held, Nat.add_comm Header.length]
    rfl
  | resync => rfl

theorem lead?_laidOut (phase : Phase) (front : Bytes) (start : Option Bytes) :
    (phase.laidOut last).lead? front start =
      some ((if start.isNone then phase.continueWith front else phase.leadUp front).1.laidOut last,
        (if start.isNone then phase.continueWith front else phase.leadUp front).2) := by
  have hstate : (phase.laidOut last).state = .resync ↔ phase = resync := state_eq_resync
  unfold ByteStream.lead? continueWith leadUp
  by_cases hp : phase = resync
  · subst hp
    cases start <;> rfl
  · rw [if_neg (mt hstate.mp hp), if_neg hp, if_neg hp, ite_self]
    exact phase.complete?_laidOut last front

/-- **The two parts of a chunk are taken in alike.** -/
theorem place?_laidOut (phase : Phase) (front rest : Bytes) :
    (phase.laidOut last).place? front none = some ((phase.continueWith front).1.laidOut last,
        (phase.continueWith front).2) ∧
      (phase.laidOut last).place? front (some rest) =
        some (((phase.leadUp front).1.restart rest).1.laidOut last,
          (phase.leadUp front).2 ++ ((phase.leadUp front).1.restart rest).2) := by
  unfold ByteStream.place?
  refine ⟨?_, ?_⟩
  · rw [lead?_laidOut]
    rfl
  · rw [lead?_laidOut]
    simp only [Option.isNone_some, Bool.false_eq_true, if_false, Option.bind_eq_bind,
      Option.bind_some, realign_laidOut]
    have hfresh : fresh ≠ resync := by decide
    rw [laidOut_feed last hfresh, drive?_laidOut last _ _ ((fresh.feed rest).work_laidOut_lt last)]
    rfl

/-- A cut at a message start within the bytes can be made. -/
theorem takeIn?_laidOut (phase : Phase) {data : Bytes} {offset : Option Nat}
    (h : ∀ o ∈ offset, o ≤ data.length) :
    (phase.laidOut last).takeIn? data offset =
      some ((phase.ingest data offset).1.laidOut last, (phase.ingest data offset).2) := by
  cases offset with
  | none => exact (phase.place?_laidOut last data []).1
  | some o =>
    simp only [ByteStream.takeIn?, Bytes.cut?_of_le (h o rfl), Option.bind_eq_bind,
      Option.bind_some]
    exact (phase.place?_laidOut last _ _).2

end Phase

namespace Stream

/-! ### A call -/

theorem takeIn?_laidOut {s : Stream} (hs : s.headerLeft = 0) {data : Bytes} {offset : Option Nat}
    (h : ∀ o ∈ offset, o ≤ data.length) :
    s.laidOut.takeIn? data offset =
      some ((s.takeIn data offset).1.laidOut, (s.takeIn data offset).2) := by
  obtain ⟨headerLeft, last, phase⟩ := s
  cases hs
  exact phase.takeIn?_laidOut last h

theorem le_of_ofByte {hint : UInt8} {length offset : Nat}
    (h : Hint.ofByte hint length = .start offset) : offset ≤ length := by
  unfold Hint.ofByte at h
  split at h
  · cases h
  · split at h
    · cases h
      assumption
    · cases h

/-- Behind the file header the first message start is still within the chunk. -/
theorem stripHeader?_laidOut (s : Stream) {data : Bytes} {offset : Option Nat}
    (h : ∀ o ∈ offset, o ≤ data.length) :
    s.laidOut.stripHeader? data offset =
      some ((s.stripHeader data offset).1.laidOut, (s.stripHeader data offset).2) := by
  rcases Nat.eq_zero_or_pos s.headerLeft with hz | hpos
  · rw [stripHeader_behind hz, ← takeIn?_laidOut hz h]
    exact if_pos hz
  have hne : ¬ s.laidOut.headerLeft = 0 := Nat.ne_of_gt hpos
  rcases Nat.lt_or_ge data.length s.headerLeft with hlt | hle
  · have hmin : min s.laidOut.headerLeft data.length = data.length :=
      Nat.min_eq_right (Nat.le_of_lt hlt)
    have hleft : ¬ s.laidOut.headerLeft - data.length = 0 :=
      Nat.sub_ne_zero_of_lt hlt
    rw [stripHeader_within hlt, ByteStream.stripHeader?, if_neg hne]
    simp only [hmin, Bytes.cut?_of_le (Nat.le_refl _), Option.bind_eq_bind, Option.bind_some,
      if_neg hleft]
    rfl
  · have hmin : min s.laidOut.headerLeft data.length = s.headerLeft := Nat.min_eq_left hle
    have hleft : s.laidOut.headerLeft - s.headerLeft = 0 := Nat.sub_self _
    have hwithin : ∀ o ∈ some (offset.getD 0 - s.headerLeft),
        o ≤ (data.drop s.headerLeft).length := by
      intro o ho
      rw [← Option.mem_some_iff.mp ho, List.length_drop]
      refine Nat.sub_le_sub_right ?_ _
      cases offset with
      | none => exact Nat.zero_le _
      | some o => exact h o rfl
    have hbehind := takeIn?_laidOut (s := { s with headerLeft := 0 }) rfl hwithin
    rw [stripHeader_completes hpos hle, ByteStream.stripHeader?, if_neg hne]
    simp only [hmin, Bytes.cut?_of_le hle, Option.bind_eq_bind, Option.bind_some, hleft, if_true,
      if_neg (Nat.ne_of_gt hpos)]
    have hlaid : (⟨s.laidOut.state, s.laidOut.buffer, 0, s.laidOut.lastSequence⟩ : ByteStream) =
        { s with headerLeft := 0 }.laidOut := rfl
    rw [hlaid, hbehind]
    rfl

theorem accept?_laidOut (s : Stream) (data : Bytes) (hint : UInt8) :
    s.laidOut.accept? data hint =
      some ((s.accept data hint).1.laidOut, (s.accept data hint).2) := by
  unfold ByteStream.accept? accept
  cases hh : Hint.ofByte hint data.length with
  | pastEnd =>
    simp only [resync_laidOut]
    rfl
  | start offset =>
    refine s.stripHeader?_laidOut fun o ho => ?_
    rw [← Option.mem_some_iff.mp ho]
    exact le_of_ofByte hh
  | noStart => exact s.stripHeader?_laidOut fun o ho => by cases ho

/-- **A call does the same to the buffer**, and the cuts that it makes can be made. -/
theorem ingest?_laidOut (s : Stream) (data : Bytes) (hint : UInt8) (sequence : Option UInt16) :
    s.laidOut.ingest? data hint sequence =
      some ((s.ingest data hint sequence).1.laidOut, (s.ingest data hint sequence).2) := by
  cases sequence with
  | none =>
    have hs : { s with lastSequence := none.or s.lastSequence } = s := by
      rw [Option.none_or]
    unfold ingest
    rw [s.arrival_none]
    simp only [hs]
    exact s.accept?_laidOut data hint
  | some actual =>
    have haccept := accept?_laidOut { s with lastSequence := some actual } data hint
    cases hl : s.lastSequence with
    | none =>
      have hlast : s.laidOut.lastSequence = none := hl
      unfold ByteStream.ingest? ingest arrival
      simp only [hlast, hl]
      exact haccept
    | some last =>
      have hlast : s.laidOut.lastSequence = some last := hl
      unfold ByteStream.ingest? ingest arrival
      simp only [hlast, hl]
      by_cases hdup : actual = last
      · simp only [if_pos hdup]
      by_cases hnext : actual = last + 1
      · simp only [if_neg hdup, if_pos hnext]
        exact haccept
      · have hlost := accept?_laidOut { s.loseTrack with lastSequence := some actual } data hint
        have hlaid : { s.loseTrack.laidOut with lastSequence := some actual } =
            { s.loseTrack with lastSequence := some actual }.laidOut := rfl
        simp only [if_neg hdup, if_neg hnext, resync_laidOut, hlaid, hlost, Option.bind_eq_bind,
          Option.bind_some]
        rfl

end Stream

/-! ### A run -/

/-- Take in chunks, one after another: the stream after them and all that came out. -/
def ByteStream.run? (b : ByteStream) : List Intake → Option (ByteStream × Report)
  | [] => some (b, .empty)
  | c :: calls => do
    let (next, report) ← b.ingest? c.data c.hint c.sequence
    let (last, more) ← next.run? calls
    return (last, report ++ more)

/-- **A run does the same to the buffer.** -/
theorem Stream.run?_laidOut : ∀ (calls : List Intake) (s : Stream),
    s.laidOut.run? calls = some ((s.after calls).laidOut, ⟨s.emitted calls, s.noted calls⟩)
  | [], _ => rfl
  | c :: calls, s => by
    simp only [ByteStream.run?, s.ingest?_laidOut, Option.bind_eq_bind, Option.bind_some,
      run?_laidOut calls]
    rfl

end Log
end FlightLink
