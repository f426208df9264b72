/-
# What one call of a stream can do

A stream is called with any bytes, any hint and any sequence number or none. It refuses the
call as a duplicate and stays as it is, or it takes the bytes in: it may lose track, which it
reports, and the bytes continue the frame in progress up to the place where messages may
start (`Intake.start?`), and are frames from there on (`Stream.intake_taken`).

Key definitions: `Report.isDuplicate`, `Report.losesTrack`, `Intake.start?`, `Intake.Sensible`,
`Stream.Keeps`.
Key theorems: `Stream.accept_sensible`, `Stream.accept_taken`, `Stream.intake_taken`,
`Stream.keeps_after`.
-/
import FlightLink.Proofs.Log.Parsing
import FlightLink.Proofs.Log.Run

namespace FlightLink
namespace Log

/-- Track is lost: chunks are missing, or a hint makes no sense. -/
def Diagnostic.losesTrack : Diagnostic → Bool
  | missingChunks _ _ => true
  | invalidOffset _ _ => true
  | _ => false

theorem Diagnostic.not_ofChunk {d : Diagnostic} (h : d.ofChunk = false) :
    d.isDuplicate = false ∧ d.losesTrack = false := by
  cases d with
  | duplicateChunk _ => cases h
  | missingChunks _ _ => cases h
  | invalidOffset _ _ => cases h
  | _ => exact ⟨rfl, rfl⟩

/-- The chunk was refused. -/
def Report.isDuplicate (report : Report) : Bool := report.diagnostics.any Diagnostic.isDuplicate

/-- Track was lost. -/
def Report.losesTrack (report : Report) : Bool := report.diagnostics.any Diagnostic.losesTrack

/-- Where in a chunk messages may start, when so many bytes of the file header are to come
before it: at its hint, but not within the file header, and right behind the file header
if there is no hint. -/
def Intake.start? (c : Intake) (headerLeft : Nat) : Option Nat :=
  if c.data.length < headerLeft then none
  else if c.hint ≠ Wire.LogData.noMessageStart then some (max headerLeft c.hint.toNat)
  else if 0 < headerLeft then some headerLeft
  else none

theorem Intake.start?_zero (c : Intake) :
    c.start? 0 = if c.hint = Wire.LogData.noMessageStart then none else some c.hint.toNat := by
  unfold start?
  rw [if_neg (Nat.not_lt_zero _), if_neg (Nat.lt_irrefl 0), Nat.zero_max, ite_not]

/-- In the chunk that completes the file header messages may always start. -/
theorem Intake.start?_header (c : Intake) {headerLeft : Nat} (hpos : 0 < headerLeft)
    (hle : headerLeft ≤ c.data.length) :
    c.start? headerLeft = some (max headerLeft ((c.start? 0).getD 0)) := by
  rw [start?_zero]
  unfold start?
  rw [if_neg (Nat.not_lt_of_le hle), if_pos hpos, ite_not]
  split
  · exact congrArg some (Nat.max_zero _).symm
  · rfl

/-- The hint does not point past the end of the chunk. -/
def Intake.Sensible (c : Intake) : Prop :=
  c.hint ≠ Wire.LogData.noMessageStart → c.hint.toNat ≤ c.data.length

instance (c : Intake) : Decidable c.Sensible :=
  inferInstanceAs (Decidable (c.hint ≠ _ → c.hint.toNat ≤ c.data.length))

theorem Intake.start?_le {c : Intake} (h : c.Sensible) {o : Nat} (ho : o ∈ c.start? 0) :
    o ≤ c.data.length := by
  rw [start?_zero] at ho
  split at ho
  · cases ho
  · rename_i hn
    cases ho
    exact h hn

theorem Intake.getD_start?_le {c : Intake} (h : c.Sensible) :
    (c.start? 0).getD 0 ≤ c.data.length := by
  cases ho : c.start? 0 with
  | none => exact Nat.zero_le _
  | some o => exact start?_le h ho

namespace Report

theorem isDuplicate_append (r s : Report) :
    (r ++ s).isDuplicate = (r.isDuplicate || s.isDuplicate) := List.any_append

theorem Plain.isDuplicate {report : Report} (h : report.Plain) : report.isDuplicate = false :=
  List.any_eq_false.mpr fun d hd => Bool.eq_false_iff.mp (Diagnostic.not_ofChunk (h d hd)).1

theorem Plain.losesTrack {report : Report} (h : report.Plain) : report.losesTrack = false :=
  List.any_eq_false.mpr fun d hd => Bool.eq_false_iff.mp (Diagnostic.not_ofChunk (h d hd)).2

/-- Giving up a frame is no refusal of a chunk. -/
theorem isDuplicate_dropped (phase : Phase) {d : Diagnostic} (h : d.isDuplicate = false) :
    (Report.mk [] (d :: phase.dropped)).isDuplicate = false := by
  have hp : (Report.mk [] phase.dropped).Plain := phase.framing_dropped.plain
  unfold Report.isDuplicate
  rw [List.any_cons, h]
  exact hp.isDuplicate

end Report

namespace Stream

/-- The first chunk of a stream is in order. -/
@[simp] theorem arrival_new (h : Nat) (sequence : Option UInt16) :
    (Stream.new h).arrival sequence = .inOrder := by
  cases sequence <;> rfl

/-- A chunk without a number is in order. -/
@[simp] theorem arrival_none (s : Stream) : s.arrival none = .inOrder := by
  unfold arrival
  cases s.lastSequence <;> rfl

theorem intake_unnumbered (s : Stream) (data : Bytes) (hint : UInt8) :
    s.intake ⟨data, hint, none⟩ = s.accept data hint :=
  intake_inOrder (c := ⟨data, hint, none⟩) s.arrival_none

/-- A chunk with a sensible hint is taken in from there on. -/
theorem accept_sensible (s : Stream) {c : Intake} (h : c.Sensible) :
    s.accept c.data c.hint = s.stripHeader c.data (c.start? 0) := by
  rw [c.start?_zero]
  unfold accept Hint.ofByte
  by_cases hn : c.hint = Wire.LogData.noMessageStart
  · rw [if_pos hn, if_pos hn]
  · rw [if_neg hn, if_neg hn, if_pos (h hn)]

/-- With any other hint track is lost. -/
theorem accept_pastEnd (s : Stream) {c : Intake} (h : ¬ c.Sensible) :
    s.accept c.data c.hint =
      (s.loseTrack, ⟨[], .invalidOffset c.hint c.data.length :: s.phase.dropped⟩) := by
  obtain ⟨hn, hlt⟩ := Classical.not_imp.mp h
  unfold accept Hint.ofByte
  rw [if_neg hn, if_neg hlt]

/-- Behind the file header a sensible hint parts the chunk. -/
theorem accept_behind {s : Stream} (hs : s.headerLeft = 0) {c : Intake} (h : c.Sensible) :
    s.accept c.data c.hint = s.takeIn c.data (c.start? 0) := by
  rw [s.accept_sensible h, stripHeader_behind hs]

/-- A new stream without a file header reads a chunk that begins with a message from its first
byte on. -/
theorem ingest_new (data : Bytes) (sequence : Option UInt16) :
    (Stream.new 0).ingest data 0 sequence =
      (⟨0, sequence, (Phase.fresh.restart data).1⟩, (Phase.fresh.restart data).2) := by
  have htaken : (Stream.new 0).intake ⟨data, 0, sequence⟩ =
      { Stream.new 0 with lastSequence := sequence.or none }.takeIn data (some 0) := by
    rw [intake_inOrder (arrival_new 0 sequence)]
    exact accept_behind (c := ⟨data, 0, sequence⟩) rfl fun _ => Nat.zero_le _
  rw [Option.or_none] at htaken
  exact htaken

/-- The stream awaits so many bytes of the file header and holds `part` of a frame; never both. -/
structure Keeps (s : Stream) (headerLeft : Nat) (part : Bytes) : Prop where
  headerLeft_eq : s.headerLeft = headerLeft
  phase_keeps : s.phase.Keeps part
  part_eq : 0 < headerLeft → part = []

theorem keeps_new (h : Nat) : (Stream.new h).Keeps h [] := ⟨rfl, Phase.keeps_fresh, fun _ => rfl⟩

theorem keeps_loseTrack (s : Stream) (last : Option UInt16) :
    Keeps { s.loseTrack with lastSequence := last } 0 [] :=
  ⟨rfl, Phase.keeps_resync, fun _ => rfl⟩

/-- What is reported of the file header. -/
theorem plain_stripped (n : Nat) :
    (if n = 0 then Report.empty else .of (.fileHeaderStripped n)).Plain ∧
      (if n = 0 then Report.empty else .of (.fileHeaderStripped n)).frames = [] := by
  split
  · exact ⟨Report.plain_empty, rfl⟩
  · exact ⟨Report.plain_of rfl, rfl⟩

theorem framing_takeIn (s : Stream) (data : Bytes) (offset : Option Nat) :
    (s.takeIn data offset).2.Framing := s.phase.framing_ingest data offset

theorem plain_stripHeader (s : Stream) (data : Bytes) (offset : Option Nat) :
    (s.stripHeader data offset).2.Plain := by
  unfold stripHeader
  split
  · exact (s.framing_takeIn data offset).plain
  · have hstripped := (plain_stripped (min s.headerLeft data.length)).1
    dsimp only
    split
    · exact hstripped.append (framing_takeIn _ _ _).plain
    · exact hstripped

/-- Only the sequence number can have a chunk refused. -/
theorem isDuplicate_accept (s : Stream) (data : Bytes) (hint : UInt8) :
    (s.accept data hint).2.isDuplicate = false := by
  unfold accept
  split
  · exact Report.isDuplicate_dropped s.phase rfl
  · exact (s.plain_stripHeader data _).isDuplicate
  · exact (s.plain_stripHeader data _).isDuplicate

theorem intake_duplicate {s : Stream} {c : Intake} {n : UInt16}
    (h : s.arrival c.sequence = .duplicate n) : s.intake c = (s, .of (.duplicateChunk n)) := by
  unfold intake ingest
  rw [h]

/-- A call in order is not refused. -/
theorem isDuplicate_inOrder {s : Stream} {c : Intake} (h : s.arrival c.sequence = .inOrder) :
    (s.intake c).2.isDuplicate = false := by
  rw [intake_inOrder h]
  exact isDuplicate_accept _ c.data c.hint

/-- A call that is no duplicate is not refused. -/
theorem isDuplicate_intake {s : Stream} {c : Intake}
    (h : ∀ n, s.arrival c.sequence ≠ .duplicate n) : (s.intake c).2.isDuplicate = false := by
  cases ha : s.arrival c.sequence with
  | duplicate n => exact absurd ha (h n)
  | inOrder => exact isDuplicate_inOrder ha
  | gap expected actual =>
    rw [intake_gap ha, Report.isDuplicate_append, isDuplicate_accept, Bool.or_false]
    exact Report.isDuplicate_dropped s.phase rfl

section Accept

variable {s : Stream} {left : Nat} {part : Bytes}

/-- Behind the file header. -/
theorem takeIn_taken (h : s.Keeps 0 part) (data : Bytes) {offset : Option Nat}
    (ho : ∀ o ∈ offset, o ≤ data.length) :
    ∃ next, (s.takeIn data offset).1.Keeps 0 next ∧
      Taken part data offset next (s.takeIn data offset).2.frames := by
  obtain ⟨next, hk, ht⟩ := Phase.ingest_taken h.phase_keeps data ho
  exact ⟨next, ⟨h.headerLeft_eq, hk, fun hpos => absurd hpos (Nat.lt_irrefl 0)⟩, ht⟩

/-- What is behind the file header in the chunk that completes it starts afresh. -/
theorem taken_drop {data next : Bytes} {o : Nat} {frames : List Frame} (hl : left ≤ data.length)
    (ht : Taken [] (data.drop left) (some (o - left)) next frames) :
    Taken [] data (some (max left o)) next frames := by
  cases ht with
  | started ho hlead hs =>
    rename_i middle lead done
    rw [List.length_drop] at ho
    rw [(hlead.of_nil).2]
    rw [List.drop_drop, show left + (o - left) = max left o by omega] at hs
    exact Taken.started (by omega) Continued.dropped hs

/-- The rest of the file header is taken off, and what is behind it taken in. -/
theorem stripHeader_taken (h : s.Keeps left part) {c : Intake} (hc : c.Sensible) :
    ∃ start next, (s.stripHeader c.data (c.start? 0)).1.Keeps (left - c.data.length) next ∧
      Taken part c.data start next (s.stripHeader c.data (c.start? 0)).2.frames ∧
      ∀ o ∈ start, c.start? left = some o := by
  rcases Nat.eq_zero_or_pos left with rfl | hpos
  · obtain ⟨next, hk, ht⟩ := takeIn_taken h c.data fun o ho => Intake.start?_le hc ho
    rw [stripHeader_behind h.headerLeft_eq, Nat.zero_sub]
    exact ⟨c.start? 0, next, hk, ht, fun o hmem => hmem⟩
  · have hpart : part = [] := h.part_eq hpos
    subst hpart
    have hleft := h.headerLeft_eq
    rcases Nat.lt_or_ge c.data.length left with hlt | hle
    · rw [stripHeader_within (hleft ▸ hlt), hleft]
      refine ⟨none, [], ⟨rfl, h.phase_keeps, fun _ => rfl⟩, ?_, fun o hmem => nomatch hmem⟩
      rw [(plain_stripped c.data.length).2]
      exact Taken.continued Continued.dropped
    · have hstart := c.start?_header hpos hle
      have hkeeps : Keeps { s with headerLeft := 0 } 0 [] := ⟨rfl, h.phase_keeps, fun _ => rfl⟩
      obtain ⟨next, hk, ht⟩ := takeIn_taken hkeeps (c.data.drop left)
        (fun o hmem => by
          rw [List.length_drop, ← Option.mem_some_iff.mp hmem]
          exact Nat.sub_le_sub_right (Intake.getD_start?_le hc) left :
            ∀ o ∈ some ((c.start? 0).getD 0 - left), _)
      rw [stripHeader_completes (hleft ▸ hpos) (hleft ▸ hle), hleft, Nat.sub_eq_zero_of_le hle]
      refine ⟨_, next, hk, taken_drop hle ht, fun o hmem => ?_⟩
      rw [hstart]
      exact hmem

/-- **A chunk is taken in, or its hint makes no sense and track is lost.** -/
theorem accept_taken (h : s.Keeps left part) (c : Intake) :
    ((s.accept c.data c.hint).2.losesTrack = true ∧
        (s.accept c.data c.hint).1.Keeps 0 [] ∧ (s.accept c.data c.hint).2.frames = []) ∨
      ((s.accept c.data c.hint).2.Plain ∧ ∃ start next,
        (s.accept c.data c.hint).1.Keeps (left - c.data.length) next ∧
        Taken part c.data start next (s.accept c.data c.hint).2.frames ∧
        ∀ o ∈ start, c.start? left = some o) := by
  by_cases hc : c.Sensible
  · rw [s.accept_sensible hc]
    exact Or.inr ⟨s.plain_stripHeader c.data _, stripHeader_taken h hc⟩
  · rw [s.accept_pastEnd hc]
    exact Or.inl ⟨rfl, s.keeps_loseTrack s.lastSequence, rfl⟩

end Accept

variable {s : Stream} {left : Nat} {part : Bytes}

/-- What is left of the file header after the bytes of a call. -/
def leftAfter (report : Report) (left length : Nat) : Nat :=
  if report.losesTrack then 0 else left - length

/-- **A call is refused and changes nothing, or its bytes are taken in**: the frame in progress
is continued unless track is lost, and frames start where they may start. -/
theorem intake_taken (h : s.Keeps left part) (c : Intake) :
    ((s.intake c).2.isDuplicate = true ∧ (s.intake c).2.losesTrack = false ∧
        (s.intake c).1 = s ∧ (s.intake c).2.frames = []) ∨
      ((s.intake c).2.isDuplicate = false ∧ ∃ held start next,
        (held = part ∨ held = []) ∧ ((s.intake c).2.losesTrack = true → held = []) ∧
        (s.intake c).1.Keeps (leftAfter (s.intake c).2 left c.data.length) next ∧
        Taken held c.data start next (s.intake c).2.frames ∧
        ∀ o ∈ start, c.start? (leftAfter (s.intake c).2 left 0) = some o) := by
  cases ha : s.arrival c.sequence with
  | duplicate n =>
    rw [intake_duplicate ha]
    exact Or.inl ⟨rfl, rfl, rfl, rfl⟩
  | inOrder =>
    have hdup := isDuplicate_inOrder ha
    rw [intake_inOrder ha] at hdup ⊢
    have hk : Keeps { s with lastSequence := c.sequence.or s.lastSequence } left part :=
      ⟨h.headerLeft_eq, h.phase_keeps, h.part_eq⟩
    rcases accept_taken hk c with ⟨hlost, hkeeps, hframes⟩ |
      ⟨hplain, start, next, hkeeps, htaken, hstart⟩
    · refine Or.inr ⟨hdup, [], none, [], Or.inr rfl, fun _ => rfl, ?_, ?_, fun o ho => nomatch ho⟩
      · rw [leftAfter, if_pos hlost]
        exact hkeeps
      · rw [hframes]
        exact Taken.continued Continued.dropped
    · have hlost := hplain.losesTrack
      refine Or.inr ⟨hdup, part, start, next, Or.inl rfl, fun ht => ?_, ?_, htaken, ?_⟩
      · rw [hlost] at ht
        cases ht
      · rwa [leftAfter, hlost]
      · rwa [leftAfter, hlost]
  | gap expected actual =>
    have hdup := isDuplicate_intake (s := s) (c := c) fun n hn => by rw [ha] at hn; cases hn
    rw [intake_gap ha] at hdup ⊢
    have hlost : ∀ report : Report, (Report.mk [] (.missingChunks expected actual :: s.phase.dropped)
        ++ report).losesTrack = true := fun _ => rfl
    rcases accept_taken (s.keeps_loseTrack c.sequence) c with
      ⟨-, hkeeps, hframes⟩ | ⟨-, start, next, hkeeps, htaken, hstart⟩
    · refine Or.inr ⟨hdup, [], none, [], Or.inr rfl, fun _ => rfl, ?_, ?_, fun o ho => nomatch ho⟩
      · rw [leftAfter, if_pos (hlost _)]
        exact hkeeps
      · rw [Report.frames_append, hframes]
        exact Taken.continued Continued.dropped
    · rw [Nat.zero_sub] at hkeeps
      refine Or.inr ⟨hdup, [], start, next, Or.inr rfl, fun _ => rfl, ?_, ?_, ?_⟩
      · rw [leftAfter, if_pos (hlost _)]
        exact hkeeps
      · rw [Report.frames_append, List.nil_append]
        exact htaken
      · rw [leftAfter, if_pos (hlost _)]
        exact hstart

/-- A stream always keeps the beginning of a frame or nothing, and no more of the file header is
left than before. -/
theorem keeps_after : ∀ (calls : List Intake) {s : Stream} {left : Nat} {part : Bytes},
    s.Keeps left part → ∃ left' ≤ left, ∃ part', (s.after calls).Keeps left' part'
  | [], _, left, part, h => ⟨left, Nat.le_refl left, part, h⟩
  | c :: calls, s, left, part, h => by
    rcases intake_taken h c with ⟨-, -, hsame, -⟩ | ⟨-, -, -, next, -, -, hkeeps, -⟩
    · rw [after, hsame]
      exact keeps_after calls h
    · obtain ⟨left', hle, part', hkeeps'⟩ := keeps_after calls hkeeps
      refine ⟨left', Nat.le_trans hle ?_, part', hkeeps'⟩
      unfold leftAfter
      split <;> omega

end Stream

end Log
end FlightLink
