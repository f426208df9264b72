/-
# What a stream can hold

In every state that calls can lead to, a stream keeps less than a header, or a header and less
than its payload, or nothing (`Phase.Valid`); and while bytes of the file header are to come it
has begun no message, given no frame, and noted exactly the bytes of the file header that have
come (`Stream.Strips`). Both are kept by each call and so by each run. A stream with a buffer is
led to the same states laid out, so its buffer goes with its state, although nothing in it ties
them together, and no call cuts past the end of its data or of the buffer.

Key definitions: `Phase.Valid`, `Report.stripped`, `Stream.Strips`, `ByteStream.Consistent`.
Key theorems: `Phase.Keeps.valid`, `Stream.Strips.intake`, `Stream.Strips.run`,
`ByteStream.consistent_after`.
-/
import FlightLink.Proofs.Log.Call
import FlightLink.Proofs.Log.Simulation
import Mathlib.Algebra.GroupWithZero.Nat

namespace FlightLink
namespace Log

namespace Phase

/-- Less than a header is kept, or less than the payload that a header of a message asks for. -/
def Valid : Phase → Prop
  | awaitingHeader pending => pending.length < Header.length
  | awaitingBody header body => header.credible = true ∧ body.length < header.size.toNat
  | resync => True

theorem Keeps.valid {phase : Phase} {part : Bytes} (h : phase.Keeps part) : phase.Valid := by
  rcases h with ⟨hu, rfl⟩ | ⟨-, rfl⟩
  · rcases hu.cases with hs | ⟨header, body, hc, rfl, hb⟩
    · rw [partway_short hs]
      exact hs
    · rw [partway_write]
      exact ⟨hc, hb⟩
  · trivial

theorem Valid.buffered_le {phase : Phase} (h : phase.Valid) : phase.buffered ≤ 65534 := by
  cases phase with
  | awaitingHeader pending =>
    have hl : pending.length < 3 := h
    simp only [buffered]
    omega
  | awaitingBody header body =>
    have hl := h.2
    have hs := header.size.toNat_lt
    simp only [buffered]
    omega
  | resync => exact Nat.zero_le _

/-! Laid out, the state says what the buffer holds. -/

section Valid

variable {phase : Phase}

theorem kept_of_resync (hs : phase.state = .resync) : phase.kept = [] := by
  cases phase with
  | resync => rfl
  | _ => cases hs

theorem Valid.awaitingHeader_kept (h : phase.Valid) (hs : phase.state = .awaitingHeader) :
    phase.kept.length < Header.length := by
  cases phase with
  | awaitingHeader pending => exact h
  | _ => cases hs

theorem Valid.awaitingBody_kept (h : phase.Valid) (header : Header)
    (hs : phase.state = .awaitingBody header) :
    (0x41 ≤ header.tag ∧ header.tag ≤ 0x5a) ∧ phase.kept.length < header.size.toNat := by
  cases phase with
  | awaitingBody header' body =>
    cases hs
    exact ⟨Header.credible_iff.mp h.1, h.2⟩
  | _ => cases hs

end Valid

end Phase

namespace Report

/-- Bytes of the file header that the report tells of. -/
def stripped (report : Report) : Nat := (report.diagnostics.map Diagnostic.headerBytes).sum

@[simp] theorem stripped_append (r s : Report) :
    (r ++ s).stripped = r.stripped + s.stripped := by
  simp [stripped]

/-- How bytes are put into frames tells nothing of the file header. -/
theorem Framing.stripped {report : Report} (h : report.Framing) : report.stripped = 0 := by
  refine List.sum_eq_zero_iff_forall_eq_nat.mpr fun n hn => ?_
  obtain ⟨d, hd, rfl⟩ := List.mem_map.mp hn
  have hframing := h d hd
  cases d <;> first | rfl | cases hframing

end Report

namespace Stream

/-- The file header comes before all messages. -/
def HeaderFirst (s : Stream) : Prop := 0 < s.headerLeft → s.phase = .fresh

/-- From one state to another, bytes of the file header have come as the report tells. While
some are still to come, nothing else has happened. -/
structure Strips (s t : Stream) (report : Report) : Prop where
  le : t.headerLeft + report.stripped ≤ s.headerLeft
  waiting : 0 < t.headerLeft → t.phase = .fresh ∧ report.frames = [] ∧
    t.headerLeft + report.stripped = s.headerLeft

section Strips

variable {s t u : Stream} {report more : Report}

theorem Strips.headerFirst (h : s.Strips t report) : t.HeaderFirst := fun hpos => (h.waiting hpos).1

theorem Strips.refl (h : s.HeaderFirst) : s.Strips s .empty :=
  ⟨Nat.le_refl _, fun hpos => ⟨h hpos, rfl, rfl⟩⟩

theorem Strips.trans (h : s.Strips t report) (h' : t.Strips u more) :
    s.Strips u (report ++ more) := by
  have hle := h.le
  have hle' := h'.le
  refine ⟨?_, fun hpos => ?_⟩
  · rw [Report.stripped_append]
    omega
  · obtain ⟨hphase, hframes, heq⟩ := h'.waiting hpos
    obtain ⟨-, hbefore, heq'⟩ := h.waiting (by omega)
    refine ⟨hphase, ?_, ?_⟩
    · rw [Report.frames_append, hbefore, hframes]
      rfl
    · rw [Report.stripped_append]
      omega

/-- Behind the file header nothing of it comes any more. -/
theorem Strips.of_zero (ht : t.headerLeft = 0) (hr : report.stripped = 0) : s.Strips t report :=
  ⟨by omega, fun hpos => by omega⟩

end Strips

/-! ### A call -/

theorem Strips.stripHeader {s : Stream} (h : s.HeaderFirst) (data : Bytes)
    (offset : Option Nat) : s.Strips (s.stripHeader data offset).1 (s.stripHeader data offset).2 := by
  have hstripped (n : Nat) :
      (if n = 0 then Report.empty else .of (.fileHeaderStripped n)).stripped = n := by
    split
    · rename_i hn
      exact hn.symm
    · simp [Report.stripped, Report.of, Diagnostic.headerBytes]
  rcases Nat.eq_zero_or_pos s.headerLeft with hz | hpos
  · rw [stripHeader_behind hz]
    exact Strips.of_zero hz (s.framing_takeIn data offset).stripped
  rcases Nat.lt_or_ge data.length s.headerLeft with hlt | hle
  · rw [stripHeader_within hlt]
    have heq : s.headerLeft - data.length + (if data.length = 0 then Report.empty
        else .of (.fileHeaderStripped data.length)).stripped = s.headerLeft := by
      rw [hstripped]
      exact Nat.sub_add_cancel (Nat.le_of_lt hlt)
    exact ⟨Nat.le_of_eq heq, fun _ => ⟨h hpos, (plain_stripped data.length).2, heq⟩⟩
  · rw [stripHeader_completes hpos hle]
    refine ⟨?_, fun hp => absurd hp (Nat.lt_irrefl 0)⟩
    rw [Report.stripped_append, (framing_takeIn _ _ _).stripped]
    show 0 + (s.headerLeft + 0 + 0) ≤ s.headerLeft
    omega

theorem Strips.accept {s : Stream} (h : s.HeaderFirst) (data : Bytes) (hint : UInt8) :
    s.Strips (s.accept data hint).1 (s.accept data hint).2 := by
  unfold Stream.accept
  split
  · refine Strips.of_zero rfl ?_
    have hdropped := s.phase.framing_dropped.stripped
    simpa [Report.stripped, Diagnostic.headerBytes] using hdropped
  · exact Strips.stripHeader h data _
  · exact Strips.stripHeader h data _

/-- **A call takes bytes of the file header off before anything else.** -/
theorem Strips.intake {s : Stream} (h : s.HeaderFirst) (c : Intake) :
    s.Strips (s.intake c).1 (s.intake c).2 := by
  cases ha : s.arrival c.sequence with
  | duplicate n =>
    rw [intake_duplicate ha]
    exact ⟨Nat.le_refl _, fun hpos => ⟨h hpos, rfl, rfl⟩⟩
  | inOrder =>
    rw [intake_inOrder ha]
    obtain ⟨hle, hwaiting⟩ := Strips.accept
      (s := { s with lastSequence := c.sequence.or s.lastSequence }) h c.data c.hint
    exact ⟨hle, hwaiting⟩
  | gap expected actual =>
    rw [intake_gap ha]
    have hdropped := s.phase.framing_dropped.stripped
    have hlost : s.Strips { s.loseTrack with lastSequence := c.sequence }
        ⟨[], .missingChunks expected actual :: s.phase.dropped⟩ := by
      refine Strips.of_zero rfl ?_
      simpa [Report.stripped, Diagnostic.headerBytes] using hdropped
    exact hlost.trans (Strips.accept hlost.headerFirst c.data c.hint)

/-! ### A run -/

/-- **A run takes the file header off before anything else.** -/
theorem Strips.run : ∀ (calls : List Intake) {s : Stream}, s.HeaderFirst →
    s.Strips (s.after calls) ⟨s.emitted calls, s.noted calls⟩
  | [], _, h => Strips.refl h
  | c :: calls, s, h => by
    have hcall := Strips.intake h c
    exact hcall.trans (Strips.run calls hcall.headerFirst)

end Stream

/-! ### State and buffer -/

namespace ByteStream

/-- What a stream that began with a file header of `h` bytes holds, when so much came out. -/
structure Consistent (h : Nat) (b : ByteStream) (report : Report) : Prop where
  resync_empty : b.state = .resync → b.buffer = []
  awaitingHeader_lt : b.state = .awaitingHeader → b.buffer.length < 3
  awaitingBody_lt : ∀ header, b.state = .awaitingBody header →
    (0x41 ≤ header.tag ∧ header.tag ≤ 0x5a) ∧ b.buffer.length < header.size.toNat
  buffered_le : b.buffer.length ≤ 65534
  /-- While bytes of the file header are to come, nothing else has happened. -/
  headerLeft_pos : 0 < b.headerLeft → b.state = .awaitingHeader ∧ b.buffer = [] ∧
    report.frames = [] ∧ b.headerLeft ≤ h ∧ report.stripped = h - b.headerLeft
  stripped_le : report.stripped ≤ h
  /-- No call cuts past the end of its data or of the buffer. -/
  ingest_within : ∀ c : Intake, ∃ next more,
    b.ingest? c.data c.hint c.sequence = some (next, more)
  /-- The file header does not come again. -/
  headerLeft_zero : b.headerLeft = 0 → ∀ calls, ∃ next more,
    b.run? calls = some (next, more) ∧ next.headerLeft = 0

/-- **Calls never fail, and every state and buffer that they can lead to go with each other and with
what came out.** -/
theorem consistent_after (h : Nat) (calls : List Intake) :
    ∃ b report, (new h).run? calls = some (b, report) ∧ Consistent h b report := by
  obtain ⟨left, -, part, hkeeps⟩ := Stream.keeps_after calls (Stream.keeps_new h)
  have hvalid := hkeeps.phase_keeps.valid
  have hstrips := Stream.Strips.run calls (s := Stream.new h) fun _ => rfl
  have hfirst := hstrips.headerFirst
  rw [← Stream.laidOut_new]
  refine ⟨_, _, Stream.run?_laidOut calls (Stream.new h), ?_⟩
  generalize (Stream.new h).after calls = s at hvalid hstrips hfirst ⊢
  generalize Report.mk ((Stream.new h).emitted calls) ((Stream.new h).noted calls) = report
    at hstrips ⊢
  have hle : s.headerLeft + report.stripped ≤ h := hstrips.le
  refine ⟨Phase.kept_of_resync, hvalid.awaitingHeader_kept, hvalid.awaitingBody_kept, ?_,
    fun hpos => ?_, by omega, fun c => ⟨_, _, s.ingest?_laidOut c.data c.hint c.sequence⟩,
    fun hz more => ⟨_, _, Stream.run?_laidOut more s, ?_⟩⟩
  · exact s.phase.length_kept ▸ hvalid.buffered_le
  · obtain ⟨hphase, hframes, heq⟩ := hstrips.waiting hpos
    have heq : s.headerLeft + report.stripped = h := heq
    have hpos : 0 < s.headerLeft := hpos
    refine ⟨congrArg Phase.state hphase, congrArg Phase.kept hphase, hframes, ?_, ?_⟩
    · show s.headerLeft ≤ h
      omega
    · show report.stripped = h - s.headerLeft
      omega
  · have hmore := (Stream.Strips.run more hfirst).le
    have hz : s.headerLeft = 0 := hz
    show (s.after more).headerLeft = 0
    omega

end ByteStream

end Log
end FlightLink
