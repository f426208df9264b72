/-
# Every byte is accounted for

A byte that a stream takes in is held for the message in progress, comes out in a frame or
is counted by a diagnostic, and only one of these (`Stream.conservation`). The one thing that
no diagnostic counts is the header of a message given up after its header was read, because
chunks are missing or a hint makes no sense (`Stream.forfeit`). Each function that takes in
bytes keeps the count; a run keeps it because each of its calls does (`Stream.bytes_run`).

Key definitions: `Diagnostic.bytes`, `Report.bytes`, `Phase.parsed`, `Stream.forfeit`.
Key theorems: `Phase.bytes_drive`, `Phase.bytes_ingest`, `Stream.bytes_accept`,
`Stream.bytes_intake`, `Stream.conservation`, `Stream.bytes_run`.
-/
import FlightLink.Proofs.Log.Provenance
import Mathlib.Algebra.GroupWithZero.Nat

namespace FlightLink
namespace Log

/-- Bytes that the diagnostic tells of. -/
def Diagnostic.bytes : Diagnostic → Nat
  | fileHeaderStripped length => length
  | invalidOffset _ length => length
  | misaligned count => count
  | orphanContinuation count => count
  | discarded length => length
  | resynchronized count => count
  | duplicateChunk _ => 0
  | missingChunks _ _ => 0
  | invalidHeader _ _ => 0

namespace Report

/-- Bytes that came out in frames or are counted by diagnostics. -/
def bytes (report : Report) : Nat :=
  (report.frames.map Frame.size).sum + (report.diagnostics.map Diagnostic.bytes).sum

@[simp] theorem bytes_empty : empty.bytes = 0 := rfl

@[simp] theorem bytes_of (d : Diagnostic) : (of d).bytes = d.bytes := by simp [bytes, of]

@[simp] theorem bytes_frame (f : Frame) : (Report.mk [f] []).bytes = f.size := by simp [bytes]

@[simp] theorem bytes_append (r s : Report) : (r ++ s).bytes = r.bytes + s.bytes := by
  simp only [bytes, frames_append, diagnostics_append, List.map_append, List.sum_append]
  omega

end Report

namespace Phase

/-- Bytes of a header that was read and whose payload has not come yet. -/
def parsed : Phase → Nat
  | awaitingBody _ _ => Header.length
  | _ => 0

theorem held_eq (phase : Phase) : phase.held = phase.parsed + phase.buffered := by
  cases phase <;> simp [held, parsed, buffered]

@[simp] theorem held_resync : resync.held = 0 := rfl

@[simp] theorem parsed_resync : resync.parsed = 0 := rfl

theorem held_of_not_inProgress {phase : Phase} (h : phase.inProgress = false) :
    phase.held = 0 := by
  cases phase with
  | awaitingHeader pending =>
    have hp : pending = [] := by simpa [inProgress] using h
    rw [hp]
    rfl
  | awaitingBody header body => cases h
  | resync => rfl

theorem held_feed {phase : Phase} (h : phase ≠ resync) (bytes : Bytes) :
    (phase.feed bytes).held = phase.held + bytes.length := by
  cases phase with
  | awaitingHeader pending => simp [feed, held]
  | awaitingBody header body => simp [feed, held, Nat.add_assoc]
  | resync => exact absurd rfl h

/-- Giving up what is kept counts it. -/
theorem bytes_dropped (d : Diagnostic) (phase : Phase) :
    (Report.mk [] (d :: phase.dropped)).bytes = d.bytes + phase.buffered := by
  unfold dropped
  by_cases h : phase.buffered = 0
  · simp [Report.bytes, h]
  · simp [Report.bytes, h, Diagnostic.bytes]

/-- A refused header is among the bytes kept. -/
theorem bytes_refused (phase : Phase) (header : Header) :
    (phase.refused header).bytes = phase.buffered := by
  simp [refused, bytes_dropped, Diagnostic.bytes]

/-! ### Reading -/

theorem held_write (header : Header) (rest : Bytes) :
    (awaitingHeader (header.write ++ rest)).held = (awaitingBody header rest).held := by
  simp [held, Frame.length_write]

theorem held_payload {header : Header} {payload : Bytes} (rest : Bytes) :
    (awaitingBody header (payload ++ rest)).held =
      (awaitingHeader rest).held + (Frame.mk header.tag payload).size := by
  simp only [held, Frame.size, List.length_append]
  omega

theorem bytes_drive : ∀ (steps : Nat) (phase : Phase),
    (drive steps phase).1.held + (drive steps phase).2.bytes = phase.held
  | 0, _ => rfl
  | steps + 1, phase => by
    have hread := phase.reads_step
    unfold drive
    generalize phase.step = step at hread ⊢
    cases hread with
    | header rest _ => rw [held_write, bytes_drive steps]
    | frame rest _ =>
      have ih := bytes_drive steps (awaitingHeader rest)
      rw [held_payload, ← ih]
      simp only [Report.bytes_append, Report.bytes_frame]
      omega
    | bogus rest _ => rw [bytes_refused]; exact Nat.zero_add _
    | stalled => rfl

/-- Reading on to the end of the message in progress gives its frame, with whatever stands
behind it kept, or no frame. -/
theorem readOne_cases (phase : Phase) :
    (∃ f rest, phase.readOne = (some f, awaitingHeader rest, .empty) ∧
      rest.length + f.size = phase.held) ∨
      ∃ next report, phase.readOne = (none, next, report) ∧
        next.held + report.bytes = phase.held := by
  have hread := phase.reads_step
  unfold readOne
  generalize phase.step = step at hread ⊢
  cases hread with
  | @header header rest _ =>
    have hbody := (awaitingBody header rest).reads_step
    rw [held_write]
    dsimp only
    generalize (awaitingBody header rest).step = step at hbody ⊢
    cases hbody with
    | frame rest _ => exact Or.inl ⟨_, rest, rfl, (held_payload rest).symm⟩
    | stalled => exact Or.inr ⟨_, _, rfl, rfl⟩
  | frame rest _ => exact Or.inl ⟨_, rest, rfl, (held_payload rest).symm⟩
  | bogus rest _ =>
    refine Or.inr ⟨_, _, rfl, ?_⟩
    rw [bytes_refused]
    exact Nat.zero_add _
  | stalled => exact Or.inr ⟨_, _, rfl, rfl⟩

/-! ### The bytes of a chunk -/

theorem bytes_complete (phase : Phase) (bytes : Bytes) :
    (phase.complete bytes).1.held + (phase.complete bytes).2.bytes =
      phase.held + bytes.length := by
  unfold complete
  by_cases hb : bytes.isEmpty = true
  · rw [if_pos hb, List.isEmpty_iff.mp hb]
    rfl
  rw [if_neg hb]
  by_cases hp : phase.inProgress = true
  · have hne : phase ≠ resync := by
      rintro rfl
      cases hp
    rw [if_pos hp, ← held_feed hne]
    rcases (phase.feed bytes).readOne_cases with ⟨f, rest, hone, hheld⟩ | ⟨next, report, hone, hheld⟩
    · rw [hone, ← hheld]
      by_cases hr : rest.length = 0
      · simp [buffered, held, hr]
      · simp [buffered, held, hr, Diagnostic.bytes, Nat.add_comm]
    · rw [hone, ← hheld]
  · rw [if_neg hp, held_of_not_inProgress (Bool.eq_false_iff.mpr hp)]
    simp [held, Diagnostic.bytes]

theorem bytes_restart (phase : Phase) (bytes : Bytes) :
    (phase.restart bytes).1.held + (phase.restart bytes).2.bytes = phase.held + bytes.length := by
  have hall := bytes_drive (fresh.feed bytes).stepsToRead (fresh.feed bytes)
  have hfresh : (fresh.feed bytes).held = bytes.length := by simp [fresh, feed, held]
  unfold restart readAll
  rw [← hfresh, ← hall]
  by_cases hp : phase.inProgress = true
  · simp only [hp, if_true, Report.bytes_append, Report.bytes_of, Diagnostic.bytes]
    omega
  · rw [held_of_not_inProgress (Bool.eq_false_iff.mpr hp)]
    simp [hp]

theorem bytes_continueWith (phase : Phase) (bytes : Bytes) :
    (phase.continueWith bytes).1.held + (phase.continueWith bytes).2.bytes =
      phase.held + bytes.length := by
  unfold continueWith
  split
  · rename_i h
    subst h
    simp [held, Diagnostic.bytes]
  · exact phase.bytes_complete bytes

theorem bytes_leadUp (phase : Phase) (bytes : Bytes) :
    (phase.leadUp bytes).1.held + (phase.leadUp bytes).2.bytes = phase.held + bytes.length := by
  unfold leadUp
  split
  · rename_i h
    subst h
    simp [held, Diagnostic.bytes]
  · exact phase.bytes_complete bytes

/-- **The bytes of a chunk are held, delivered or counted.** -/
theorem bytes_ingest (phase : Phase) (bytes : Bytes) (offset : Option Nat) :
    (phase.ingest bytes offset).1.held + (phase.ingest bytes offset).2.bytes =
      phase.held + bytes.length := by
  cases offset with
  | none => exact phase.bytes_continueWith bytes
  | some o =>
    have hlead := phase.bytes_leadUp (bytes.take o)
    have hrest := (phase.leadUp (bytes.take o)).1.bytes_restart (bytes.drop o)
    have hsplit : (bytes.take o).length + (bytes.drop o).length = bytes.length := by
      rw [← List.length_append, List.take_append_drop]
    simp only [ingest, Report.bytes_append]
    omega

end Phase

namespace Stream

variable (s : Stream)

/-! ### A call -/

theorem bytes_stripHeader (data : Bytes) (offset : Option Nat) :
    (s.stripHeader data offset).1.phase.held + (s.stripHeader data offset).2.bytes =
      s.phase.held + data.length := by
  rcases Nat.eq_zero_or_pos s.headerLeft with hz | hpos
  · rw [stripHeader_behind hz]
    exact s.phase.bytes_ingest data offset
  rcases Nat.lt_or_ge data.length s.headerLeft with hlt | hle
  · rw [stripHeader_within hlt]
    split
    · rename_i hn
      rw [hn]
      rfl
    · exact congrArg (s.phase.held + ·) (Report.bytes_of _)
  · have hrest := s.phase.bytes_ingest (data.drop s.headerLeft)
      (some (offset.getD 0 - s.headerLeft))
    rw [List.length_drop] at hrest
    rw [stripHeader_completes hpos hle, Report.bytes_append, Report.bytes_of]
    simp only [takeIn, Diagnostic.bytes]
    omega

/-- The header of the message in progress, where track is lost. -/
def forfeit (c : Intake) : Nat :=
  if (s.intake c).2.losesTrack then s.phase.parsed else 0

theorem bytes_accept (data : Bytes) (hint : UInt8) :
    s.phase.held + data.length = (s.accept data hint).1.phase.held + (s.accept data hint).2.bytes +
      if (s.accept data hint).2.losesTrack then s.phase.parsed else 0 := by
  unfold accept
  split
  · have hlost : (Report.mk [] (.invalidOffset hint data.length :: s.phase.dropped)).losesTrack =
        true := rfl
    rw [hlost, if_pos rfl, Phase.bytes_dropped, s.phase.held_eq]
    simp only [loseTrack, Phase.held_resync, Diagnostic.bytes]
    omega
  · rw [(s.plain_stripHeader data _).losesTrack, bytes_stripHeader]
    rfl
  · rw [(s.plain_stripHeader data _).losesTrack, bytes_stripHeader]
    rfl

/-- Without track there is no header to give up. -/
theorem bytes_accept_resync {s : Stream} (h : s.phase = .resync) (data : Bytes) (hint : UInt8) :
    data.length = (s.accept data hint).1.phase.held + (s.accept data hint).2.bytes := by
  have haccept := s.bytes_accept data hint
  rw [h] at haccept
  simpa using haccept

/-- **The bytes of a call that is not refused are held, delivered or counted, save for the
header of a message given up.** -/
theorem bytes_intake {c : Intake} (h : ∀ n, s.arrival c.sequence ≠ .duplicate n) :
    s.phase.held + c.data.length =
      (s.intake c).1.phase.held + (s.intake c).2.bytes + s.forfeit c := by
  unfold forfeit
  cases ha : s.arrival c.sequence with
  | duplicate n => exact absurd ha (h n)
  | inOrder =>
    rw [intake_inOrder ha]
    exact bytes_accept { s with lastSequence := c.sequence.or s.lastSequence } c.data c.hint
  | gap expected actual =>
    have haccept := bytes_accept_resync
      (show { s.loseTrack with lastSequence := c.sequence }.phase = .resync from rfl) c.data c.hint
    have hlost : ∀ report : Report, (Report.mk [] (.missingChunks expected actual ::
        s.phase.dropped) ++ report).losesTrack = true := fun _ => rfl
    rw [intake_gap ha, hlost, if_pos rfl, Report.bytes_append, Phase.bytes_dropped,
      s.phase.held_eq, haccept]
    simp only [Diagnostic.bytes]
    omega

/-- **A call that is refused changes nothing. Any other call accounts for every byte**: what was
held and what came is held, delivered or counted, save for the header of a message given up. -/
theorem conservation (s : Stream) (c : Intake) :
    (∃ n, c.sequence = some n ∧ s.lastSequence = some n ∧
        s.intake c = (s, ⟨[], [.duplicateChunk n]⟩)) ∨
      (¬ ∃ n, c.sequence = some n ∧ s.lastSequence = some n) ∧
        s.phase.held + c.data.length =
          (s.intake c).1.phase.held + ((s.intake c).2.frames.map Frame.size).sum +
            ((s.intake c).2.diagnostics.map Diagnostic.bytes).sum + s.forfeit c := by
  by_cases hdup : ∃ n, c.sequence = some n ∧ s.lastSequence = some n
  · obtain ⟨n, hc, hs⟩ := hdup
    exact Or.inl ⟨n, hc, hs, intake_duplicate (s.arrival_duplicate_iff.mpr ⟨hc, hs⟩)⟩
  · refine Or.inr ⟨hdup, ?_⟩
    rw [s.bytes_intake fun n hn => hdup ⟨n, s.arrival_duplicate_iff.mp hn⟩, Report.bytes,
      ← Nat.add_assoc]

/-! ### A run -/

/-- The headers of the messages given up in a run. -/
def forfeited (s : Stream) : List Intake → Nat
  | [] => 0
  | c :: cs => s.forfeit c + (s.intake c).1.forfeited cs

/-- **All bytes taken in by a run are held at its end, delivered or counted**, save for the
headers of the messages given up. -/
theorem bytes_run : ∀ (cs : List Intake) (s : Stream),
    s.phase.held + (s.accepted cs).length =
      (s.after cs).phase.held + ((s.emitted cs).map Frame.size).sum +
        ((s.noted cs).map Diagnostic.bytes).sum + s.forfeited cs
  | [], _ => rfl
  | c :: cs, s => by
    have ih := bytes_run cs (s.intake c).1
    rw [emitted_cons, noted_cons, List.map_append, List.map_append, List.sum_append,
      List.sum_append, forfeited, accepted, List.length_append]
    by_cases hdup : ∃ n, s.arrival c.sequence = .duplicate n
    · obtain ⟨n, hn⟩ := hdup
      have hdup : (s.intake c).2.isDuplicate = true := by
        rw [intake_duplicate hn]
        rfl
      have hnone : s.forfeit c = 0 := by
        unfold forfeit
        rw [intake_duplicate hn]
        rfl
      rw [hdup, hnone, after]
      rw [intake_duplicate hn] at ih ⊢
      simpa [Report.of, Diagnostic.bytes] using ih
    · have hcall := s.bytes_intake fun n hn => hdup ⟨n, hn⟩
      rw [isDuplicate_intake fun n hn => hdup ⟨n, hn⟩]
      rw [Report.bytes] at hcall
      simp only [Bool.false_eq_true, if_false, after]
      omega

end Stream

end Log
end FlightLink
