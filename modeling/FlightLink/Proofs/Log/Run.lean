/-
# One chunk after another

What a stream does with chunks that come in order: its state after them (`Stream.after`)
and what it reported of each (`Stream.reports`). A chunk that comes again right after
itself is reported as a duplicate and changes nothing else, so a run in which chunks are
repeated is, up to these reports, the run without the repetitions.

Key definitions: `Intake`, `Stream.after`, `Stream.reports`, `Stream.emitted`,
`Stream.noted`.
Key theorems: `Stream.after_append`, `Stream.intake_again`, `Stream.after_destutter`,
`Stream.emitted_destutter`, `Stream.notedOther_destutter`, `Stream.duplicates_destutter`.
-/
import FlightLink.Log.Stream
import Mathlib.Data.List.Destutter

namespace FlightLink
namespace Log

/-- A chunk as a stream is given it. -/
structure Intake where
  data : Bytes
  hint : UInt8
  sequence : Option UInt16
  deriving DecidableEq, Repr

/-- The diagnostic of a chunk that was delivered before. -/
def Diagnostic.isDuplicate : Diagnostic → Bool
  | duplicateChunk _ => true
  | _ => false

/-- Bytes of the file header that the diagnostic tells of. -/
def Diagnostic.headerBytes : Diagnostic → Nat
  | fileHeaderStripped length => length
  | _ => 0

namespace Stream

/-- Take in one chunk. -/
def intake (s : Stream) (c : Intake) : Stream × Report := s.ingest c.data c.hint c.sequence

/-- The stream after chunks. -/
def after (s : Stream) : List Intake → Stream
  | [] => s
  | c :: cs => (s.intake c).1.after cs

/-- What was reported of each chunk. -/
def reports (s : Stream) : List Intake → List Report
  | [] => []
  | c :: cs => (s.intake c).2 :: (s.intake c).1.reports cs

/-- The frames that came out of chunks. -/
def emitted (s : Stream) (cs : List Intake) : List Frame := (s.reports cs).flatMap Report.frames

/-- The diagnostics that came out of chunks. -/
def noted (s : Stream) (cs : List Intake) : List Diagnostic :=
  (s.reports cs).flatMap Report.diagnostics

/-! ### Runs in parts -/

theorem emitted_cons (s : Stream) (c : Intake) (cs : List Intake) :
    s.emitted (c :: cs) = (s.intake c).2.frames ++ (s.intake c).1.emitted cs := rfl

theorem noted_cons (s : Stream) (c : Intake) (cs : List Intake) :
    s.noted (c :: cs) = (s.intake c).2.diagnostics ++ (s.intake c).1.noted cs := rfl

theorem after_append : ∀ (s : Stream) (a b : List Intake), s.after (a ++ b) = (s.after a).after b
  | _, [], _ => rfl
  | s, c :: a, b => after_append (s.intake c).1 a b

theorem reports_append : ∀ (s : Stream) (a b : List Intake),
    s.reports (a ++ b) = s.reports a ++ (s.after a).reports b
  | _, [], _ => rfl
  | s, c :: a, b => congrArg ((s.intake c).2 :: ·) (reports_append (s.intake c).1 a b)

theorem emitted_append (s : Stream) (a b : List Intake) :
    s.emitted (a ++ b) = s.emitted a ++ (s.after a).emitted b := by
  rw [emitted, reports_append, List.flatMap_append]
  rfl

/-! ### Sequence numbers -/

theorem lastSequence_stripHeader (s : Stream) (data : Bytes) (offset : Option Nat) :
    (s.stripHeader data offset).1.lastSequence = s.lastSequence := by
  rw [stripHeader]
  split
  · rfl
  · dsimp only
    split <;> rfl

theorem lastSequence_accept (s : Stream) (data : Bytes) (hint : UInt8) :
    (s.accept data hint).1.lastSequence = s.lastSequence := by
  rw [accept]
  split
  · rfl
  · exact lastSequence_stripHeader s data _
  · exact lastSequence_stripHeader s data _

/-- A chunk is a duplicate if it has the number of the last one. -/
theorem arrival_duplicate_iff (s : Stream) {sequence : Option UInt16} {n : UInt16} :
    s.arrival sequence = .duplicate n ↔ sequence = some n ∧ s.lastSequence = some n := by
  unfold arrival
  cases s.lastSequence with
  | none => simp
  | some last =>
    cases sequence with
    | none => simp
    | some actual =>
      by_cases he : actual = last
      · simp [he]
      · have hn : ¬ (actual = n ∧ last = n) := fun h => he (h.1.trans h.2.symm)
        simp only [if_neg he, Option.some.injEq, hn, iff_false]
        split <;> exact Arrival.noConfusion

theorem lastSequence_intake (s : Stream) {c : Intake} {n : UInt16} (h : c.sequence = some n) :
    (s.intake c).1.lastSequence = some n := by
  rw [intake, ingest, h]
  split
  · rename_i again ha
    rw [← h] at ha
    rw [(s.arrival_duplicate_iff.mp ha).2, ← (s.arrival_duplicate_iff.mp ha).1, h]
  · exact lastSequence_accept _ c.data c.hint
  · exact lastSequence_accept _ c.data c.hint

/-- The next number is in order, and so is any number at the start. -/
theorem arrival_inOrder {s : Stream} {n : UInt16}
    (h : ∀ last ∈ s.lastSequence, n = last + 1) : s.arrival (some n) = .inOrder := by
  unfold arrival
  cases hl : s.lastSequence with
  | none => rfl
  | some last =>
    have hn : n = last + 1 := h last hl
    have hne : n ≠ last := by
      rw [hn]
      intro he
      have h1 := congrArg UInt16.toNat he
      rw [UInt16.toNat_add, UInt16.toNat_one] at h1
      have h2 := last.toNat_lt
      omega
    simp only [if_neg hne, if_pos hn]

theorem intake_inOrder {s : Stream} {c : Intake} (h : s.arrival c.sequence = .inOrder) :
    s.intake c = { s with lastSequence := c.sequence.or s.lastSequence }.accept c.data c.hint := by
  rw [intake, ingest, h]

/-- Any other number means that chunks are missing. -/
theorem arrival_gap {s : Stream} {last n : UInt16} (hl : s.lastSequence = some last)
    (hd : n ≠ last) (hn : n ≠ last + 1) : s.arrival (some n) = .gap (last + 1) n := by
  unfold arrival
  simp only [hl, if_neg hd, if_neg hn]

theorem intake_gap {s : Stream} {c : Intake} {expected actual : UInt16}
    (h : s.arrival c.sequence = .gap expected actual) :
    s.intake c =
      (({ s.loseTrack with lastSequence := c.sequence }.accept c.data c.hint).1,
        ⟨[], .missingChunks expected actual :: s.phase.dropped⟩ ++
          ({ s.loseTrack with lastSequence := c.sequence }.accept c.data c.hint).2) := by
  rw [intake, ingest, h]

/-! ### Repetitions -/

/-- A chunk that comes right after itself only gives a diagnostic. -/
theorem intake_again (s : Stream) {c : Intake} {n : UInt16} (h : c.sequence = some n) :
    (s.intake c).1.intake c = ((s.intake c).1, .of (.duplicateChunk n)) := by
  have hl := lastSequence_intake s h
  generalize (s.intake c).1 = t at hl ⊢
  rw [intake, h, ingest_duplicate hl]

section Repetitions

variable {chunk : Nat → Intake} {number : Nat → UInt16}

/-- What is asked of the reports is blind to duplicates, so it finds the same without the
repetitions; and the stream is the same too. -/
theorem run_destutter' (hc : ∀ i, (chunk i).sequence = some (number i)) {α : Type}
    {f : Report → List α} (hf : ∀ n, f (.of (.duplicateChunk n)) = []) :
    ∀ (order : List Nat) (i : Nat) (s : Stream),
      s.after ((i :: order).map chunk) = s.after ((order.destutter' (· ≠ ·) i).map chunk) ∧
        (s.reports ((i :: order).map chunk)).flatMap f =
          (s.reports ((order.destutter' (· ≠ ·) i).map chunk)).flatMap f
  | [], _, _ => ⟨rfl, rfl⟩
  | j :: order, i, s => by
    by_cases hij : i = j
    · subst hij
      have hi := intake_again s (hc i)
      obtain ⟨h1, h2⟩ := run_destutter' hc hf order i s
      rw [List.destutter'_cons_neg _ (by simp), ← h1, ← h2]
      simp only [List.map_cons, after, reports, hi, List.flatMap_cons, hf, List.nil_append, and_self]
    · obtain ⟨h1, h2⟩ := run_destutter' hc hf order j (s.intake (chunk i)).1
      rw [List.destutter'_cons_pos _ hij]
      exact ⟨h1, congrArg (f (s.intake (chunk i)).2 ++ ·) h2⟩

theorem duplicates_destutter' (hc : ∀ i, (chunk i).sequence = some (number i)) :
    ∀ (order : List Nat) (i : Nat) (s : Stream),
      (s.noted ((i :: order).map chunk)).countP (·.isDuplicate) +
          (order.destutter' (· ≠ ·) i).length =
        (s.noted ((order.destutter' (· ≠ ·) i).map chunk)).countP (·.isDuplicate) +
          (i :: order).length
  | [], _, _ => rfl
  | j :: order, i, s => by
    by_cases hij : i = j
    · subst hij
      have h := duplicates_destutter' hc order i s
      have hn : s.noted ((i :: i :: order).map chunk) = (s.intake (chunk i)).2.diagnostics ++
          .duplicateChunk (number i) :: (s.intake (chunk i)).1.noted (order.map chunk) := by
        simp only [List.map_cons, noted_cons, intake_again s (hc i)]
        rfl
      rw [List.map_cons, noted_cons, List.countP_append, List.length_cons] at h
      rw [List.destutter'_cons_neg _ (by simp), hn, List.countP_append,
        List.countP_cons_of_pos rfl, List.length_cons, List.length_cons]
      omega
    · have h := duplicates_destutter' hc order j (s.intake (chunk i)).1
      have hn (l : List Nat) : s.noted ((i :: l).map chunk) =
          (s.intake (chunk i)).2.diagnostics ++ (s.intake (chunk i)).1.noted (l.map chunk) := rfl
      rw [List.destutter'_cons_pos _ hij, hn, hn, List.countP_append, List.countP_append,
        List.length_cons, List.length_cons]
      omega

variable (order : List Nat) (s : Stream)

/-- **Repetitions do not change the stream.** -/
theorem after_destutter (hc : ∀ i, (chunk i).sequence = some (number i)) :
    s.after (order.map chunk) = s.after ((order.destutter (· ≠ ·)).map chunk) := by
  cases order with
  | nil => rfl
  | cons i order => exact (run_destutter' hc (f := fun _ => ([] : List Unit)) (fun _ => rfl) order i s).1

/-- **Repetitions give no frames.** -/
theorem emitted_destutter (hc : ∀ i, (chunk i).sequence = some (number i)) :
    s.emitted (order.map chunk) = s.emitted ((order.destutter (· ≠ ·)).map chunk) := by
  cases order with
  | nil => rfl
  | cons i order => exact (run_destutter' hc (fun _ => rfl) order i s).2

/-- Repetitions give no diagnostics but those of duplicates. -/
theorem notedOther_destutter (hc : ∀ i, (chunk i).sequence = some (number i)) :
    (s.noted (order.map chunk)).filter (!·.isDuplicate) =
      (s.noted ((order.destutter (· ≠ ·)).map chunk)).filter (!·.isDuplicate) := by
  rw [noted, noted, List.filter_flatMap, List.filter_flatMap]
  cases order with
  | nil => rfl
  | cons i order => exact (run_destutter' hc (fun _ => rfl) order i s).2

/-- Every repetition gives one diagnostic. -/
theorem duplicates_destutter (hc : ∀ i, (chunk i).sequence = some (number i)) :
    (s.noted (order.map chunk)).countP (·.isDuplicate) + (order.destutter (· ≠ ·)).length =
      (s.noted ((order.destutter (· ≠ ·)).map chunk)).countP (·.isDuplicate) + order.length := by
  cases order with
  | nil => rfl
  | cons i order => exact duplicates_destutter' hc order i s

end Repetitions

end Stream

end Log
end FlightLink
