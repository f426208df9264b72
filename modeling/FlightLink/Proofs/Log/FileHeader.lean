/-
# Taking the file header off

A stream with a file header does what a stream without one does with the same chunks, when the
first bytes are taken off these: nothing is left of a chunk within the header, and in the chunk
that completes it the first message starts behind the header, or later if the hint says so
(`Intake.bare`). That holds as long as the header comes undisturbed; what comes behind it may be
anything (`Stream.header_transparent`). What carries it along a run is that, the count of header
bytes apart, the two streams are the same after each call (`Stream.intake_bare`).

Key definitions: `Intake.bare`, `Calls.bare`, `Stream.pastHeader`, `Stream.Successive`,
`Stream.Undisturbed`.
Key theorems: `Stream.intake_bare`, `Stream.run_bare`, `Stream.header_transparent`.
-/
import FlightLink.Proofs.Log.Boundary
import FlightLink.Proofs.Log.Provenance
import FlightLink.Proofs.Log.Representation

namespace FlightLink
namespace Log

/-! ### Chunks without the file header -/

/-- What is left of a chunk when so many bytes of the file header are to come. -/
def Intake.bare (c : Intake) (left : Nat) : Intake :=
  if c.data.length < left then ⟨[], Wire.LogData.noMessageStart, c.sequence⟩
  else
    ⟨c.data.drop left,
      if c.hint = Wire.LogData.noMessageStart then 0 else Hint.sub c.hint left, c.sequence⟩

/-- Calls without the first `left` bytes of their chunks. A chunk that repeats the number of the
last one is no part of the stream and stays as it is. -/
def Calls.bare (left : Nat) (last : Option UInt16) : List Intake → List Intake
  | [] => []
  | c :: cs =>
    if left = 0 then c :: cs
    else if c.sequence ≠ none ∧ c.sequence = last then c :: bare left last cs
    else c.bare left :: bare (left - c.data.length) (c.sequence.or last) cs

namespace Intake

@[simp] theorem sequence_bare (c : Intake) (left : Nat) : (c.bare left).sequence = c.sequence := by
  unfold bare
  split <;> rfl

theorem data_bare (c : Intake) (left : Nat) : (c.bare left).data = c.data.drop left := by
  unfold bare
  split
  · rename_i h
    exact (List.drop_eq_nil_of_le (Nat.le_of_lt h)).symm
  · rfl

section Completes

variable {c : Intake} {left : Nat} (hle : left ≤ c.data.length)
include hle

/-- In the chunk that completes the file header a message starts. -/
theorem hint_bare : (c.bare left).hint ≠ Wire.LogData.noMessageStart ∧
    (c.bare left).hint.toNat = (c.start? 0).getD 0 - left := by
  rw [start?_zero, bare, if_neg (Nat.not_lt_of_le hle)]
  by_cases hn : c.hint = Wire.LogData.noMessageStart
  · simp only [if_pos hn]
    exact ⟨by decide, (Nat.zero_sub left).symm⟩
  · simp only [if_neg hn]
    exact ⟨Hint.sub_ne hn left, Hint.toNat_sub c.hint left⟩

/-- It starts within the bytes that are left of the chunk. -/
theorem hint_bare_le (h : c.Sensible) :
    (c.bare left).hint.toNat ≤ (c.bare left).data.length := by
  rw [(hint_bare hle).2, data_bare, List.length_drop]
  exact Nat.sub_le_sub_right (getD_start?_le h) left

end Completes

/-- What is left of a chunk has a sensible hint if the chunk has. -/
theorem sensible_bare {c : Intake} (h : c.Sensible) {left : Nat} : (c.bare left).Sensible := by
  rcases Nat.lt_or_ge c.data.length left with hlt | hle
  · intro hn
    rw [bare, if_pos hlt] at hn
    exact absurd rfl hn
  · exact fun _ => hint_bare_le hle h

end Intake

theorem Calls.bare_zero (last : Option UInt16) (calls : List Intake) :
    bare 0 last calls = calls := by
  cases calls <;> rfl

/-- Taking bytes off does not look ahead. -/
theorem Calls.take_bare : ∀ (calls : List Intake) (left : Nat) (last : Option UInt16) (n : Nat),
    (bare left last calls).take n = bare left last (calls.take n)
  | [], _, _, n => by rw [bare, List.take_nil, bare]
  | _ :: _, _, _, 0 => rfl
  | c :: cs, left, last, n + 1 => by
    rw [List.take_succ_cons, bare, bare]
    split
    · rw [List.take_succ_cons]
    · split
      · rw [List.take_succ_cons, take_bare]
      · rw [List.take_succ_cons, take_bare]

namespace Stream

/-- The stream, as if its file header had come. -/
def pastHeader (s : Stream) : Stream := { s with headerLeft := 0 }

/-- The number of a chunk is that of the last one or the next one. -/
def Successive (s : Stream) (sequence : Option UInt16) : Prop :=
  ∀ last ∈ s.lastSequence, ∀ n ∈ sequence, n = last ∨ n = last + 1

instance (s : Stream) (sequence : Option UInt16) : Decidable (s.Successive sequence) :=
  match hlast : s.lastSequence, sequence with
  | some last, some n =>
    decidable_of_iff (n = last ∨ n = last + 1) (by simp [Successive, hlast])
  | none, _ => isTrue (by simp [Successive, hlast])
  | _, none => isTrue (by simp [Successive])

/-- Until the file header has come, no chunk is missing and no hint points past the end of its
chunk. -/
def Undisturbed (s : Stream) : List Intake → Prop
  | [] => True
  | c :: cs => 0 < s.headerLeft →
    s.Successive c.sequence ∧ c.Sensible ∧ (s.intake c).1.Undisturbed cs

instance decidableUndisturbed : ∀ (s : Stream) (calls : List Intake),
    Decidable (s.Undisturbed calls)
  | _, [] => isTrue trivial
  | s, c :: cs =>
    have := decidableUndisturbed (s.intake c).1 cs
    inferInstanceAs (Decidable (0 < s.headerLeft →
      s.Successive c.sequence ∧ c.Sensible ∧ (s.intake c).1.Undisturbed cs))

theorem pastHeader_of_zero {s : Stream} (h : s.headerLeft = 0) : s.pastHeader = s := by
  rw [pastHeader, ← h]

theorem Undisturbed.take : ∀ {calls : List Intake} {s : Stream}, s.Undisturbed calls →
    ∀ n, s.Undisturbed (calls.take n)
  | [], _, _, n => by
    rw [List.take_nil]
    trivial
  | _ :: _, _, _, 0 => trivial
  | c :: cs, s, h, n + 1 => fun hpos => by
    obtain ⟨hnext, hsensible, hrest⟩ := h hpos
    exact ⟨hnext, hsensible, hrest.take n⟩

/-! ### A call -/

section Call

variable {s : Stream} {c : Intake}

/-- A number that neither repeats the last one nor leaves one out is in order. -/
theorem arrival_next (hnext : s.Successive c.sequence)
    (hnew : ¬ (c.sequence ≠ none ∧ c.sequence = s.lastSequence)) :
    s.arrival c.sequence = .inOrder := by
  cases hn : c.sequence with
  | none => exact s.arrival_none
  | some n =>
    refine arrival_inOrder fun last hlast => ?_
    refine (hnext last hlast n hn).resolve_left fun he => hnew ?_
    rw [hn, hlast, he]
    exact ⟨Option.some_ne_none last, rfl⟩

theorem arrival_bare (ha : s.arrival c.sequence = .inOrder) (left : Nat) :
    s.pastHeader.arrival (c.bare left).sequence = .inOrder := by
  rw [Intake.sequence_bare]
  exact ha

/-- A chunk that repeats the last number is refused by both. -/
theorem intake_repeated (hrep : c.sequence ≠ none ∧ c.sequence = s.lastSequence) :
    ∃ n, s.intake c = (s, .of (.duplicateChunk n)) ∧
      s.pastHeader.intake c = (s.pastHeader, .of (.duplicateChunk n)) := by
  obtain ⟨n, hn⟩ := Option.ne_none_iff_exists'.mp hrep.1
  have hlast : s.lastSequence = some n := hrep.2.symm.trans hn
  exact ⟨n, intake_duplicate (s.arrival_duplicate_iff.mpr ⟨hn, hlast⟩),
    intake_duplicate (s.pastHeader.arrival_duplicate_iff.mpr ⟨hn, hlast⟩)⟩

/-- Behind its number a chunk is taken in alike by both. -/
theorem takeIn_bare (h : s.HeaderFirst) (hpos : 0 < s.headerLeft) :
    (s.pastHeader.takeIn (c.bare s.headerLeft).data ((c.bare s.headerLeft).start? 0)).1 =
        (s.stripHeader c.data (c.start? 0)).1.pastHeader ∧
      (s.pastHeader.takeIn (c.bare s.headerLeft).data ((c.bare s.headerLeft).start? 0)).2.frames =
        (s.stripHeader c.data (c.start? 0)).2.frames ∧
      (s.stripHeader c.data (c.start? 0)).1.headerLeft = s.headerLeft - c.data.length := by
  rw [Intake.data_bare, Intake.start?_zero]
  rcases Nat.lt_or_ge c.data.length s.headerLeft with hlt | hle
  · -- an empty chunk without a start leaves the phase as it is
    have hhint : (c.bare s.headerLeft).hint = Wire.LogData.noMessageStart := by
      rw [Intake.bare, if_pos hlt]
    rw [if_pos hhint, List.drop_eq_nil_of_le (Nat.le_of_lt hlt), stripHeader_within hlt]
    have hidle : s.pastHeader.takeIn [] none = (s.pastHeader, .empty) := by
      rw [pastHeader, show s.phase = .fresh from h hpos]
      rfl
    rw [hidle]
    exact ⟨rfl, (plain_stripped c.data.length).2.symm, rfl⟩
  · obtain ⟨hhint, hstart⟩ := Intake.hint_bare hle
    rw [if_neg hhint, hstart, stripHeader_completes hpos hle, Nat.sub_eq_zero_of_le hle]
    exact ⟨rfl, rfl, rfl⟩

/-- **While bytes of the file header are to come**, the stream does with a chunk in order what one
without a file header does with what is left of the chunk. -/
theorem intake_bare (h : s.HeaderFirst) (hpos : 0 < s.headerLeft) (hc : c.Sensible)
    (ha : s.arrival c.sequence = .inOrder) :
    (s.pastHeader.intake (c.bare s.headerLeft)).1 = (s.intake c).1.pastHeader ∧
      (s.pastHeader.intake (c.bare s.headerLeft)).2.frames = (s.intake c).2.frames ∧
      (s.intake c).1.headerLeft = s.headerLeft - c.data.length ∧
      (s.intake c).1.lastSequence = c.sequence.or s.lastSequence := by
  obtain ⟨hstream, hframes, hleft⟩ :=
    takeIn_bare (s := ⟨s.headerLeft, c.sequence.or s.lastSequence, s.phase⟩) (c := c) h hpos
  have hcall : s.intake c = Stream.stripHeader ⟨s.headerLeft, c.sequence.or s.lastSequence, s.phase⟩
      c.data (c.start? 0) := by
    rw [intake_inOrder ha]
    exact accept_sensible _ hc
  have hbare : s.pastHeader.intake (c.bare s.headerLeft) =
      Stream.takeIn ⟨0, c.sequence.or s.lastSequence, s.phase⟩
        (c.bare s.headerLeft).data ((c.bare s.headerLeft).start? 0) := by
    rw [intake_inOrder (arrival_bare ha s.headerLeft), Intake.sequence_bare]
    exact accept_behind rfl (Intake.sensible_bare hc)
  rw [hbare, hcall]
  exact ⟨hstream, hframes, hleft, lastSequence_stripHeader _ _ _⟩

end Call

/-! ### A run -/

/-- **A run** gives the same frames, and the count of header bytes apart it leads to the same
stream. The bytes of the file header are all that it takes in less. -/
theorem run_bare : ∀ (calls : List Intake) {s : Stream}, s.HeaderFirst → s.Undisturbed calls →
    s.pastHeader.after (Calls.bare s.headerLeft s.lastSequence calls) = (s.after calls).pastHeader ∧
      s.pastHeader.emitted (Calls.bare s.headerLeft s.lastSequence calls) = s.emitted calls ∧
      s.pastHeader.accepted (Calls.bare s.headerLeft s.lastSequence calls) =
        (s.accepted calls).drop s.headerLeft
  | [], s, _, _ => by
    rw [Calls.bare]
    exact ⟨rfl, rfl, List.drop_nil.symm⟩
  | c :: cs, s, h, hq => by
    rcases Nat.eq_zero_or_pos s.headerLeft with hz | hpos
    · -- the file header has come, and does not come again
      rw [hz, Calls.bare_zero, pastHeader_of_zero hz, List.drop_zero]
      have hle := (Strips.run (c :: cs) h).le
      exact ⟨(pastHeader_of_zero (by omega)).symm, rfl, rfl⟩
    · obtain ⟨hnext, hc, hrest⟩ := hq hpos
      rw [Calls.bare, if_neg (Nat.ne_of_gt hpos)]
      split
      · rename_i hrep
        obtain ⟨n, hcall, hbare⟩ := intake_repeated hrep
        rw [hcall] at hrest
        obtain ⟨hafter, hemitted, haccepted⟩ := run_bare cs h hrest
        simp only [after, emitted_cons, accepted, hcall, hbare]
        exact ⟨hafter, congrArg _ hemitted, haccepted⟩
      · rename_i hnew
        have ha := arrival_next hnext hnew
        obtain ⟨hstream, hframes, hleft, hlast⟩ := intake_bare h hpos hc ha
        obtain ⟨hafter, hemitted, haccepted⟩ :=
          run_bare cs (Strips.intake h c).headerFirst hrest
        rw [hleft, hlast, ← hstream] at hafter hemitted haccepted
        rw [emitted_cons, emitted_cons, hframes, hemitted, accepted, accepted,
          isDuplicate_inOrder ha, isDuplicate_inOrder (arrival_bare ha s.headerLeft), haccepted,
          Intake.data_bare]
        exact ⟨hafter, rfl, List.drop_append.symm⟩

/-- **Taking the file header off leaves no trace.** Let the file header of `h` bytes come
undisturbed, and a stream without one be given the calls without these bytes. It takes in all bytes
but the first `h`, and after each call it has given the same frames and is the same stream, but for
the count of header bytes to come, and so the very same once the header has come. In the chunk that
completes the header the start that is left never points past the end. -/
theorem header_transparent (h : Nat) {calls : List Intake}
    (hcalls : (Stream.new h).Undisturbed calls) :
    let bare := Calls.bare h none calls
    (Stream.new 0).accepted bare = ((Stream.new h).accepted calls).drop h ∧
      (∀ n, (Stream.new 0).emitted (bare.take n) = (Stream.new h).emitted (calls.take n)) ∧
      (∀ n, (Stream.new 0).after (bare.take n) =
        ((Stream.new h).after (calls.take n)).pastHeader) ∧
      (∀ n, ((Stream.new h).after (calls.take n)).headerLeft = 0 →
        (Stream.new 0).after (bare.take n) = (Stream.new h).after (calls.take n)) ∧
      ∀ (c : Intake) (left : Nat), left ≤ c.data.length → c.Sensible →
        (c.bare left).hint ≠ Wire.LogData.noMessageStart ∧
          (c.bare left).hint.toNat ≤ (c.bare left).data.length := by
  intro bare
  have hrun (n : Nat) := run_bare (calls.take n) (fun _ => rfl) (hcalls.take n)
  have hafter (n : Nat) : (Stream.new 0).after (bare.take n) =
      ((Stream.new h).after (calls.take n)).pastHeader := by
    rw [Calls.take_bare]
    exact (hrun n).1
  refine ⟨(run_bare calls (fun _ => rfl) hcalls).2.2, fun n => ?_, hafter, fun n hz => ?_, ?_⟩
  · rw [Calls.take_bare]
    exact (hrun n).2.1
  · rw [hafter, pastHeader_of_zero hz]
  · exact fun c left hle hc => ⟨(Intake.hint_bare hle).1, Intake.hint_bare_le hle hc⟩

/-- The file header comes in two chunks, the first of them twice, and the second one has a message
start too, right behind it; then chunks are missing. -/
theorem header_transparent_cut :
    let calls : List Intake := [⟨[1, 2], 255, some 0⟩, ⟨[1, 2], 255, some 0⟩,
      ⟨[3, 4, 2, 0, 79, 7], 2, some 1⟩, ⟨[8, 1, 0, 82], 1, some 2⟩, ⟨[5, 1, 0, 82, 6], 1, some 9⟩]
    let bare : List Intake := [⟨[], 255, some 0⟩, ⟨[1, 2], 255, some 0⟩,
      ⟨[2, 0, 79, 7], 0, some 1⟩, ⟨[8, 1, 0, 82], 1, some 2⟩, ⟨[5, 1, 0, 82, 6], 1, some 9⟩]
    (Stream.new 4).Undisturbed calls ∧ Calls.bare 4 none calls = bare ∧
      (∀ n, (Stream.new 0).emitted (bare.take n) = (Stream.new 4).emitted (calls.take n)) ∧
      (Stream.new 0).after bare = (Stream.new 4).after calls ∧
      (Stream.new 4).emitted calls = [⟨79, [7, 8]⟩, ⟨82, [6]⟩] := by
  intro calls bare
  have hcalls : (Stream.new 4).Undisturbed calls := by decide
  have hbare : Calls.bare 4 none calls = bare := by decide
  obtain ⟨-, hemitted, -, hafter, -⟩ := header_transparent 4 hcalls
  rw [hbare] at hemitted hafter
  exact ⟨hcalls, hbare, hemitted, hafter 5 (by decide), by decide⟩

end Stream

end Log
end FlightLink
