/-
# Reading frames that are cut anywhere

What a phase does with the bytes of proper frames. `Phase.partway part` is the phase in
which exactly the bytes `part` of a frame have been read, and it is computed from these
bytes alone. Reading from a frame start on gives the frames that are complete and stays
partway in the next (`readAll_join`); bytes that continue a frame lead from one partway
phase to another (`complete_unfinished`) or to the frame (`complete_whole`).

Key definitions: `Frame.Unfinished`, `Phase.partway`.
Key theorems: `Phase.readAll_join`, `Phase.complete_unfinished`, `Phase.complete_whole`,
`Phase.ingest_unfinished`, `Phase.ingest_whole`, `Phase.ingest_turn`, `Phase.ingest_start`,
`Phase.ingest_some`.
-/
import FlightLink.Log.Phase
import FlightLink.Proofs.Log.Layout

namespace FlightLink
namespace Log

namespace Frame

/-- The beginning of a frame, with something of it still to come. -/
def Unfinished (part : Bytes) : Prop :=
  ∃ (f : Frame) (rest : Bytes), f.Proper ∧ part ++ rest = f.toBytes ∧ rest ≠ []

theorem unfinished_nil : Unfinished [] :=
  ⟨⟨0x41, []⟩, _, ⟨by decide, by decide, by decide⟩, List.nil_append _, by decide⟩

/-- An unfinished frame breaks off within its header or within its payload. -/
theorem Unfinished.cases {part : Bytes} (h : Unfinished part) : part.length < Header.length ∨
    ∃ (header : Header) (body : Bytes), header.credible = true ∧ part = header.write ++ body ∧
      body.length < header.size.toNat := by
  obtain ⟨f, rest, hf, he, hr⟩ := h
  rw [toBytes] at he
  rcases List.append_eq_append_iff.mp he with ⟨as, ha, -⟩ | ⟨body, hb, hp⟩
  · have hl := congrArg List.length ha
    rw [length_write, List.length_append] at hl
    by_cases has : as = []
    · right
      refine ⟨f.header, [], hf.credible, ?_, ?_⟩
      · rw [ha, has, List.append_nil, List.append_nil]
      · rw [has, List.append_nil] at ha
        rw [← ha] at he
        rw [← hf.length_payload, ← List.append_cancel_left he]
        exact List.length_pos_iff.mpr hr
    · left
      have := List.length_pos_iff.mpr has
      omega
  · right
    refine ⟨f.header, body, hf.credible, hb, ?_⟩
    have := List.length_pos_iff.mpr hr
    rw [← hf.length_payload, hp, List.length_append]
    omega

end Frame

namespace Header

theorem read?_of_length_lt {bytes : Bytes} (h : bytes.length < length) : read? bytes = none := by
  match bytes, h with
  | [], _ => rfl
  | [_], _ => rfl
  | [_, _], _ => rfl
  | _ :: _ :: _ :: _, h =>
    simp only [length, List.length_cons] at h
    omega

theorem read?_append {bytes : Bytes} {header : Header} {rest : Bytes}
    (h : read? bytes = some (header, rest)) (more : Bytes) :
    read? (bytes ++ more) = some (header, rest ++ more) := by
  match bytes, h with
  | _ :: _ :: _ :: _, h =>
    simp only [read?, Option.some.injEq, Prod.mk.injEq] at h
    simp [read?, ← h.1, ← h.2]

end Header

theorem Report.append_empty (r : Report) : r ++ Report.empty = r := by
  show Report.mk (r.frames ++ []) (r.diagnostics ++ []) = r
  rw [List.append_nil, List.append_nil]

namespace Phase

open Log.Frame

/-- The phase in which exactly `part` of a frame has been read. -/
def partway (part : Bytes) : Phase :=
  match Header.read? part with
  | none => awaitingHeader part
  | some (header, body) => awaitingBody header body

@[simp] theorem partway_nil : partway [] = fresh := rfl

theorem partway_short {part : Bytes} (h : part.length < Header.length) :
    partway part = awaitingHeader part := by
  rw [partway, Header.read?_of_length_lt h]

@[simp] theorem partway_write (header : Header) (body : Bytes) :
    partway (header.write ++ body) = awaitingBody header body := by
  rw [partway, Header.read_write]

theorem partway_ne_resync (part : Bytes) : partway part ≠ resync := by
  rw [partway]
  split <;> exact Phase.noConfusion

theorem inProgress_partway {part : Bytes} (h : part ≠ []) : (partway part).inProgress = true := by
  rw [partway]
  split
  · simpa [inProgress] using h
  · rfl

/-- More bytes of the frame: the phase is partway in both together, save that a header they
complete is yet to be read. -/
theorem feed_partway (part more : Bytes) :
    (partway part).feed more = awaitingHeader (part ++ more) ∨
      (partway part).feed more = partway (part ++ more) := by
  cases h : Header.read? part with
  | none => exact Or.inl (by rw [partway, h, feed])
  | some r =>
    right
    rw [partway, h, partway, Header.read?_append h more, feed]

/-! ### Within one frame -/

/-- A payload that is not complete is waited for. -/
theorem step_body {header : Header} {body : Bytes} (h : body.length < header.size.toNat) :
    step (awaitingBody header body) = .stalled := by
  have hl : (body.take header.size.toNat).length < header.size.toNat := by
    rw [List.length_take]
    omega
  simp only [step, if_pos hl]

theorem step_short {part : Bytes} (h : part.length < Header.length) :
    step (awaitingHeader part) = .stalled := by
  simp only [step, Header.read?_of_length_lt h]

theorem drive_unfinished {part : Bytes} (h : Unfinished part) (steps : Nat) :
    drive (steps + 1) (awaitingHeader part) = (partway part, .empty) := by
  rcases h.cases with hs | ⟨header, body, hc, rfl, hb⟩
  · rw [drive_stalled (step_short hs), partway_short hs]
  · rw [drive, step_header hc, partway_write]
    exact drive_stalled (step_body hb) steps

theorem readOne_unfinished {part : Bytes} (h : Unfinished part) {phase : Phase}
    (hp : phase = awaitingHeader part ∨ phase = partway part) :
    phase.readOne = (none, partway part, .empty) := by
  rcases h.cases with hs | ⟨header, body, hc, rfl, hb⟩
  · have he : phase = awaitingHeader part := by
      rwa [partway_short hs, or_self] at hp
    rw [he, readOne, step_short hs, partway_short hs]
  · rw [partway_write] at hp ⊢
    rcases hp with rfl | rfl
    · simp only [readOne, step_header hc, step_body hb]
    · simp only [readOne, step_body hb]

/-- A frame is read, and what stands behind it is left. -/
theorem readOne_frame {f : Frame} (h : f.Proper) (rest : Bytes) {phase : Phase}
    (hp : phase = awaitingHeader (f.toBytes ++ rest) ∨ phase = partway (f.toBytes ++ rest)) :
    phase.readOne = (some f, awaitingHeader rest, .empty) := by
  have hb := step_frame h.length_payload rest
  rw [toBytes, List.append_assoc, partway_write] at hp
  rcases hp with rfl | rfl
  · simp only [readOne, step_header h.credible, hb]
    rfl
  · simp only [readOne, hb]
    rfl

/-- Bytes that do not complete the frame in progress are kept. -/
theorem complete_unfinished {part more : Bytes} (hp : part ≠ []) (h : Unfinished (part ++ more)) :
    (partway part).complete more = (partway (part ++ more), .empty) := by
  rw [complete]
  by_cases hm : more = []
  · rw [hm, List.append_nil]
    rfl
  · rw [if_neg (by simpa using hm), if_pos (inProgress_partway hp),
      readOne_unfinished h (feed_partway part more)]

/-- Bytes that complete the frame in progress give the frame. More bytes than that are
misaligned. -/
theorem complete_frame {f : Frame} {part bytes rest : Bytes} (hf : f.Proper)
    (h : part ++ bytes = f.toBytes ++ rest) (hp : part ≠ []) (hb : bytes ≠ []) :
    (partway part).complete bytes =
      if rest = [] then (fresh, ⟨[f], []⟩) else (resync, ⟨[f], [.misaligned rest.length]⟩) := by
  have hw := feed_partway part bytes
  rw [h] at hw
  rw [complete, if_neg (by simpa using hb), if_pos (inProgress_partway hp),
    readOne_frame hf rest hw]
  by_cases hr : rest = []
  · subst hr
    rfl
  · have hl : ¬ (awaitingHeader rest).buffered = 0 := fun h => hr (List.length_eq_zero_iff.mp h)
    rw [if_neg hr]
    exact if_neg hl

/-- The last bytes of the frame in progress give the frame. -/
theorem complete_whole {f : Frame} {part rest : Bytes} (hf : f.Proper)
    (h : part ++ rest = f.toBytes) (hp : part ≠ []) (hr : rest ≠ []) :
    (partway part).complete rest = (fresh, ⟨[f], []⟩) := by
  rw [← List.append_nil f.toBytes] at h
  rw [complete_frame hf h hp hr, if_pos rfl]

/-! ### From a frame start on -/

/-- Frames are read one after the other, and then what stands behind them. -/
theorem drive_join {tail : Bytes} {next : Phase} {report : Report}
    (h : ∀ steps, drive (steps + 1) (awaitingHeader tail) = (next, report)) : ∀ done : List Frame,
    (∀ f ∈ done, f.Proper) → ∀ steps : Nat,
    drive (2 * done.length + (steps + 1)) (awaitingHeader (join done ++ tail)) =
      (next, ⟨done, []⟩ ++ report)
  | [], _, steps => by
    rw [join_nil, List.nil_append, List.length_nil, Nat.mul_zero, Nat.zero_add]
    exact h steps
  | f :: fs, hd, steps => by
    have hf := hd f List.mem_cons_self
    have ih := drive_join h fs (fun g hg => hd g (List.mem_cons_of_mem f hg)) steps
    have hn : 2 * (f :: fs).length + (steps + 1) = 2 * fs.length + (steps + 1) + 2 := by
      rw [List.length_cons]
      omega
    rw [hn, join_cons, List.append_assoc, drive_frame hf.credible (Nat.lt_succ_of_le hf.payload_le),
      ih]
    rfl

theorem length_le_join (fs : List Frame) : fs.length ≤ (join fs).length := by
  induction fs with
  | nil => exact Nat.le_refl 0
  | cons f fs ih =>
    have hp := f.size_pos
    rw [List.length_cons, join_cons, List.length_append, length_toBytes]
    omega

/-- **Frames that follow one another from a start on are all read**, and then what stands
behind them. -/
theorem readAll_join {done : List Frame} {tail : Bytes} {next : Phase} {report : Report}
    (hd : ∀ f ∈ done, f.Proper)
    (h : ∀ steps, drive (steps + 1) (awaitingHeader tail) = (next, report)) :
    (fresh.feed (join done ++ tail)).readAll = (next, ⟨done, []⟩ ++ report) := by
  have hl := length_le_join done
  obtain ⟨steps, hs⟩ : ∃ steps, (awaitingHeader (join done ++ tail)).stepsToRead =
      2 * done.length + (steps + 1) := by
    refine ⟨2 * (join done ++ tail).length + 1 - 2 * done.length, ?_⟩
    rw [stepsToRead, buffered, List.length_append]
    omega
  show (awaitingHeader (join done ++ tail)).readAll = _
  rw [readAll, hs, drive_join h done hd steps]

/-- What was in progress has no part in what a start begins. -/
theorem restart_join (phase : Phase) {done : List Frame} {part : Bytes} (hd : ∀ f ∈ done, f.Proper)
    (h : Unfinished part) :
    phase.restart (join done ++ part) =
      (partway part, ⟨done, if phase.inProgress then [.misaligned phase.held] else []⟩) := by
  rw [restart, readAll_join hd (drive_unfinished h), Report.append_empty]
  cases phase.inProgress <;> rfl

/-! ### A chunk -/

theorem continueWith_partway (part more : Bytes) :
    (partway part).continueWith more = (partway part).complete more := by
  rw [continueWith, if_neg (partway_ne_resync part)]

theorem leadUp_partway (part more : Bytes) :
    (partway part).leadUp more = (partway part).complete more := by
  rw [leadUp, if_neg (partway_ne_resync part)]

/-- A chunk within a frame. -/
theorem ingest_unfinished {part more : Bytes} (hp : part = [] → more = [])
    (h : Unfinished (part ++ more)) :
    (partway part).ingest more none = (partway (part ++ more), .empty) := by
  rw [ingest, continueWith_partway]
  by_cases he : part = []
  · rw [hp he, he]
    rfl
  · exact complete_unfinished he h

/-- A chunk that ends with a frame. -/
theorem ingest_whole {f : Frame} {part rest : Bytes} (hf : f.Proper)
    (h : part ++ rest = f.toBytes) (hp : part ≠ []) (hr : rest ≠ []) :
    (partway part).ingest rest none = (fresh, ⟨[f], []⟩) := by
  rw [ingest, continueWith_partway, complete_whole hf h hp hr]

/-- A chunk in which one frame ends and others begin. -/
theorem ingest_turn {f : Frame} {part rest tail : Bytes} {done : List Frame} (hf : f.Proper)
    (h : part ++ rest = f.toBytes) (hp : part ≠ []) (hr : rest ≠ [])
    (hd : ∀ g ∈ done, g.Proper) (ht : Unfinished tail) :
    (partway part).ingest (rest ++ (join done ++ tail)) (some rest.length) =
      (partway tail, ⟨f :: done, []⟩) := by
  simp only [ingest, List.take_left, List.drop_left, leadUp_partway,
    complete_whole hf h hp hr, restart_join fresh hd ht]
  rfl

/-- A chunk that begins with a frame. -/
theorem ingest_start {tail : Bytes} {done : List Frame} (hd : ∀ g ∈ done, g.Proper)
    (ht : Unfinished tail) :
    fresh.ingest (join done ++ tail) (some 0) = (partway tail, ⟨done, []⟩) := by
  simp only [ingest, List.take_zero, List.drop_zero]
  rw [← partway_nil, leadUp_partway, complete, if_pos List.isEmpty_nil]
  simp only [partway_nil, restart_join fresh hd ht]
  rfl

/-- From the first start on the frames are read, whatever bytes stand in front of it. -/
theorem ingest_some (phase : Phase) (lead : Bytes) {done : List Frame} {tail : Bytes}
    (hd : ∀ g ∈ done, g.Proper) (ht : Unfinished tail) :
    (phase.ingest (lead ++ (join done ++ tail)) (some lead.length)).1 = partway tail ∧
      (phase.ingest (lead ++ (join done ++ tail)) (some lead.length)).2.frames =
        (phase.leadUp lead).2.frames ++ done := by
  simp only [ingest, List.take_left, List.drop_left, restart_join _ hd ht, Report.frames_append,
    and_self]

/-! ### Without a message in progress -/

theorem complete_idle {phase : Phase} (h : phase.inProgress = false) (bytes : Bytes) :
    (phase.complete bytes).1.inProgress = false ∧ (phase.complete bytes).2.frames = [] := by
  rw [complete, h]
  by_cases hb : bytes.isEmpty = true
  · rw [if_pos hb]
    exact ⟨h, rfl⟩
  · rw [if_neg hb]
    exact ⟨rfl, rfl⟩

/-- Bytes that nothing in progress can use give no frame. -/
theorem ingest_none_idle {phase : Phase} (h : phase.inProgress = false) (bytes : Bytes) :
    (phase.ingest bytes none).1.inProgress = false ∧
      (phase.ingest bytes none).2.frames = [] := by
  rw [ingest, continueWith]
  split
  · exact ⟨rfl, rfl⟩
  · exact complete_idle h bytes

theorem leadUp_idle {phase : Phase} (h : phase.inProgress = false) (bytes : Bytes) :
    (phase.leadUp bytes).2.frames = [] := by
  rw [leadUp]
  split
  · rfl
  · exact (complete_idle h bytes).2

end Phase

end Log
end FlightLink
