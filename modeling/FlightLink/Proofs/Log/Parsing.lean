/-
# Reading bytes of any kind

What a phase does with bytes of which nothing is known. Any bytes are frames in a row and
then something that is no frame: the beginning of one, or a header that no frame has
(`Frame.exists_join`). So a phase always holds the beginning of one frame or nothing
(`Phase.Keeps`), and what it does with the bytes of a chunk is one of few things: the bytes
in front of the first start continue the frame in progress or end it (`Continued`), and
from the start on frames are read (`Started`). What is reported is how the bytes were put
into frames, and none of it is put down to the sequence number or the hint of a chunk
(`Phase.framing_ingest`).

Key definitions: `Frame.Bogus`, `Phase.Reads`, `Phase.Keeps`, `Continued`, `Started`, `Taken`,
`Report.Plain`, `Report.Framing`.
Key theorems: `Frame.exists_join`, `Phase.reads_step`, `Phase.complete_continued`,
`Phase.restart_started`, `Phase.ingest_taken`, `Phase.framing_ingest`.
-/
import FlightLink.Proofs.Log.Partway

namespace FlightLink
namespace Log

/-! ### Any bytes are frames and a rest -/

namespace Header

/-- What was read as a header is that header. -/
theorem write_of_read? {bytes rest : Bytes} {header : Header}
    (h : read? bytes = some (header, rest)) : bytes = header.write ++ rest := by
  match bytes, h with
  | low :: high :: tag :: more, h =>
    simp only [read?, Option.some.injEq, Prod.mk.injEq] at h
    obtain ⟨rfl, rfl⟩ := h
    have hlt : LittleEndian.decode [low, high] < LittleEndian.values 2 :=
      LittleEndian.decode_lt [low, high]
    have hn : (UInt16.ofNat (LittleEndian.decode [low, high])).toNat =
        LittleEndian.decode [low, high] := by
      rw [UInt16.toNat_ofNat', Nat.mod_eq_of_lt (Nat.lt_of_lt_of_le hlt (by decide))]
    have hw : LittleEndian.ofUInt16 (LittleEndian.toUInt16 [low, high]) = [low, high] := by
      rw [LittleEndian.ofUInt16, LittleEndian.toUInt16, List.take_of_length_le (Nat.le_refl 2), hn]
      exact LittleEndian.encode_decode [low, high]
    rw [write, hw]
    rfl

theorem read?_of_length_le {bytes : Bytes} (h : length ≤ bytes.length) :
    ∃ header rest, read? bytes = some (header, rest) := by
  match bytes, h with
  | low :: high :: tag :: rest, _ => exact ⟨_, rest, rfl⟩
  | [_, _], h => cases (by decide : ¬ length ≤ 2) h
  | [_], h => cases (by decide : ¬ length ≤ 1) h
  | [], h => cases (by decide : ¬ length ≤ 0) h

end Header

namespace Frame

/-- The bytes begin with a header that no frame has. -/
def Bogus (bytes : Bytes) : Prop :=
  ∃ header rest, Header.read? bytes = some (header, rest) ∧ header.credible = false

/-- A credible header with a payload of its size makes a frame. -/
theorem proper_of_credible {header : Header} {payload : Bytes} (h : header.credible = true)
    (hp : payload.length = header.size.toNat) :
    (Frame.mk header.tag payload).Proper ∧
      (Frame.mk header.tag payload).toBytes = header.write ++ payload := by
  have ht := Header.credible_iff.mp h
  have hs := header.size.toNat_lt
  refine ⟨⟨ht.1, ht.2, ?_⟩, ?_⟩
  · show payload.length ≤ 65535
    omega
  · rw [toBytes, Frame.header, hp, UInt16.ofNat_toNat]

/-- Less of the payload than the header says is the beginning of a frame. -/
theorem unfinished_body {header : Header} {body : Bytes} (h : header.credible = true)
    (hb : body.length < header.size.toNat) : Unfinished (header.write ++ body) := by
  have hl : (body ++ List.replicate (header.size.toNat - body.length) (0 : UInt8)).length =
      header.size.toNat := by
    rw [List.length_append, List.length_replicate]
    omega
  obtain ⟨hf, he⟩ := proper_of_credible h hl
  refine ⟨_, List.replicate (header.size.toNat - body.length) 0, hf, ?_, ?_⟩
  · rw [he, List.append_assoc]
  · refine List.ne_nil_of_length_pos ?_
    rw [List.length_replicate]
    omega

/-- Any bytes too few for a header are the beginning of a frame. -/
theorem unfinished_short {part : Bytes} (h : part.length < Header.length) : Unfinished part := by
  obtain ⟨low, high, more, hm, hne⟩ :
      ∃ low high more, part ++ more = [low, high, (0x41 : UInt8)] ∧ more ≠ [] := by
    match part, h with
    | [], _ => exact ⟨0, 0, [0, 0, 0x41], rfl, List.cons_ne_nil _ _⟩
    | [low], _ => exact ⟨low, 0, [0, 0x41], rfl, List.cons_ne_nil _ _⟩
    | [low, high], _ => exact ⟨low, high, [0x41], rfl, List.cons_ne_nil _ _⟩
    | _ :: _ :: _ :: _, h =>
      simp only [Header.length, List.length_cons] at h
      omega
  obtain ⟨header, hw, hc⟩ : ∃ header : Header, [low, high, 0x41] = header.write ∧
      header.credible = true := by
    have hr : Header.read? [low, high, 0x41] = some (⟨_, 0x41⟩, []) := rfl
    have hw := Header.write_of_read? hr
    rw [List.append_nil] at hw
    exact ⟨_, hw, rfl⟩
  have hp : (List.replicate header.size.toNat (0 : UInt8)).length = header.size.toNat :=
    List.length_replicate
  obtain ⟨hf, he⟩ := proper_of_credible hc hp
  refine ⟨_, more ++ List.replicate header.size.toNat 0, hf, ?_, ?_⟩
  · rw [he, ← hw, ← hm, List.append_assoc]
  · exact List.append_ne_nil_of_left_ne_nil hne _

/-- **Any bytes begin with a frame, or are the beginning of one, or begin with a header that no
frame has.** -/
theorem front_cases (bytes : Bytes) : Unfinished bytes ∨
    (∃ (f : Frame) (rest : Bytes), f.Proper ∧ bytes = f.toBytes ++ rest) ∨ Bogus bytes := by
  rcases Nat.lt_or_ge bytes.length Header.length with hl | hl
  · exact Or.inl (unfinished_short hl)
  · obtain ⟨header, rest, hr⟩ := Header.read?_of_length_le hl
    have hw := Header.write_of_read? hr
    cases hc : header.credible with
    | false => exact Or.inr (Or.inr ⟨header, rest, hr, hc⟩)
    | true =>
      rcases Nat.lt_or_ge rest.length header.size.toNat with hs | hs
      · rw [hw]
        exact Or.inl (unfinished_body hc hs)
      · have hp : (rest.take header.size.toNat).length = header.size.toNat := by
          rw [List.length_take, Nat.min_eq_left hs]
        obtain ⟨hf, he⟩ := proper_of_credible hc hp
        refine Or.inr (Or.inl ⟨_, rest.drop header.size.toNat, hf, ?_⟩)
        rw [he, List.append_assoc, List.take_append_drop, hw]

/-- **Any bytes are frames in a row and a rest that begins with none.** -/
theorem exists_join (bytes : Bytes) : ∃ done tail, bytes = join done ++ tail ∧
    (∀ f ∈ done, f.Proper) ∧ (Unfinished tail ∨ Bogus tail) := by
  rcases front_cases bytes with h | ⟨f, rest, hf, he⟩ | h
  · exact ⟨[], bytes, rfl, fun f hf => absurd hf List.not_mem_nil, Or.inl h⟩
  · have hpos := f.size_pos
    have hlt : rest.length < bytes.length := by
      rw [he, List.length_append, length_toBytes]
      omega
    obtain ⟨done, tail, hd, hp, ht⟩ := exists_join rest
    refine ⟨f :: done, tail, ?_, ?_, ht⟩
    · rw [he, hd, join_cons, List.append_assoc]
    · intro g hg
      rcases List.mem_cons.mp hg with rfl | hg
      · exact hf
      · exact hp g hg
  · exact ⟨[], bytes, rfl, fun f hf => absurd hf List.not_mem_nil, Or.inr h⟩
termination_by bytes.length

end Frame

open Log.Frame

/-! ### What one step reads -/

namespace Phase

/-- What a phase reads at once, told by the bytes it holds. -/
inductive Reads : Phase → Step → Prop where
  | header {header : Header} (rest : Bytes) : header.credible = true →
    Reads (awaitingHeader (header.write ++ rest)) (.header (awaitingBody header rest))
  | frame {header : Header} {payload : Bytes} (rest : Bytes) :
    payload.length = header.size.toNat →
    Reads (awaitingBody header (payload ++ rest)) (.frame ⟨header.tag, payload⟩ (awaitingHeader rest))
  | bogus {header : Header} (rest : Bytes) : header.credible = false →
    Reads (awaitingHeader (header.write ++ rest)) (.bogus header)
  | stalled {phase : Phase} : Reads phase .stalled

theorem reads_step (phase : Phase) : phase.Reads phase.step := by
  cases phase with
  | awaitingHeader pending =>
    cases hr : Header.read? pending with
    | none =>
      simp only [step, hr]
      exact Reads.stalled
    | some r =>
      obtain ⟨header, rest⟩ := r
      have hw := Header.write_of_read? hr
      cases hc : header.credible with
      | true =>
        simp only [step, hr, hc, if_true]
        rw [hw]
        exact Reads.header rest hc
      | false =>
        simp only [step, hr, hc, Bool.false_eq_true, if_false]
        rw [hw]
        exact Reads.bogus rest hc
  | awaitingBody header body =>
    by_cases hl : header.size.toNat ≤ body.length
    · have hp : (body.take header.size.toNat).length = header.size.toNat := by
        rw [List.length_take, Nat.min_eq_left hl]
      have hs := step_frame hp (body.drop header.size.toNat)
      have hr := Reads.frame (body.drop header.size.toNat) hp
      rw [← hs, List.take_append_drop] at hr
      exact hr
    · rw [step_body (Nat.lt_of_not_le hl)]
      exact Reads.stalled
  | resync => exact Reads.stalled

end Phase

/-! ### What bytes become -/

/-- What becomes of the bytes `part` of the frame in progress when `bytes` come that can only
continue it: what is in progress then, and the frames that came out. -/
inductive Continued (part bytes : Bytes) : Bytes → List Frame → Prop where
  | kept : (part = [] → bytes = []) → Continued part bytes (part ++ bytes) []
  | dropped : Continued part bytes [] []
  | completed (f : Frame) (rest : Bytes) : part ≠ [] → f.Proper →
    part ++ bytes = f.toBytes ++ rest → Continued part bytes [] [f]

/-- What bytes from a frame start on become: the frames that they are, and what is in
progress then. -/
def Started (bytes next : Bytes) (frames : List Frame) : Prop :=
  (∀ f ∈ frames, f.Proper) ∧ ∃ tail, bytes = join frames ++ tail ∧ (next = tail ∨ next = [])

/-- What becomes of `part` and the bytes of a chunk in which the first frame starts at an
offset. -/
inductive Taken (part bytes : Bytes) : Option Nat → Bytes → List Frame → Prop where
  | continued {next : Bytes} {frames : List Frame} : Continued part bytes next frames →
    Taken part bytes none next frames
  | started {offset : Nat} {middle next : Bytes} {lead frames : List Frame} :
    offset ≤ bytes.length → Continued part (bytes.take offset) middle lead →
    Started (bytes.drop offset) next frames → Taken part bytes (some offset) next (lead ++ frames)

/-- Without a frame in progress there is none to continue. -/
theorem Continued.of_nil {bytes next : Bytes} {frames : List Frame}
    (h : Continued [] bytes next frames) : next = [] ∧ frames = [] := by
  cases h with
  | kept h =>
    rw [h rfl]
    exact ⟨rfl, rfl⟩
  | dropped => exact ⟨rfl, rfl⟩
  | completed f rest h => exact absurd rfl h

namespace Phase

/-- The phase holds exactly the bytes `part` of a frame; none if track is lost. -/
def Keeps (phase : Phase) (part : Bytes) : Prop :=
  Unfinished part ∧ phase = partway part ∨ part = [] ∧ phase = resync

theorem keeps_partway {part : Bytes} (h : Unfinished part) : (partway part).Keeps part :=
  Or.inl ⟨h, rfl⟩

theorem keeps_fresh : fresh.Keeps [] := Or.inl ⟨unfinished_nil, rfl⟩

theorem keeps_resync : resync.Keeps [] := Or.inr ⟨rfl, rfl⟩

theorem Keeps.eq_partway {phase : Phase} {part : Bytes} (h : phase.Keeps part) (hp : part ≠ []) :
    Unfinished part ∧ phase = partway part :=
  h.resolve_right fun hr => hp hr.1

theorem Keeps.inProgress_nil {phase : Phase} (h : phase.Keeps []) : phase.inProgress = false := by
  rcases h with ⟨-, rfl⟩ | ⟨-, rfl⟩ <;> rfl

/-- The phase in front of a header that no frame has. -/
theorem step_bogus {bytes : Bytes} (h : Bogus bytes) :
    ∃ header, (awaitingHeader bytes).step = .bogus header := by
  obtain ⟨header, rest, hr, hc⟩ := h
  refine ⟨header, ?_⟩
  simp only [step, hr, hc, Bool.false_eq_true, if_false]

/-- The header of the frame in progress stays credible. -/
theorem feed_bogus {part more : Bytes} (h : Unfinished part) (hb : Bogus (part ++ more)) :
    (partway part).feed more = awaitingHeader (part ++ more) := by
  rcases h.cases with hs | ⟨header, body, hc, rfl, -⟩
  · rw [partway_short hs, feed]
  · obtain ⟨header', rest, hr, hc'⟩ := hb
    rw [List.append_assoc, Header.read_write] at hr
    cases hr
    rw [hc] at hc'
    cases hc'

/-- **Bytes in front of a start continue the frame in progress or end it.** -/
theorem complete_continued {phase : Phase} {part : Bytes} (h : phase.Keeps part) (bytes : Bytes) :
    ∃ next, (phase.complete bytes).1.Keeps next ∧
      Continued part bytes next (phase.complete bytes).2.frames := by
  by_cases hb : bytes = []
  · subst hb
    refine ⟨part ++ [], ?_, Continued.kept fun _ => rfl⟩
    rw [List.append_nil]
    exact h
  have he : bytes.isEmpty = false := by
    rw [List.isEmpty_eq_false_iff]
    exact hb
  by_cases hp : part = []
  · subst hp
    have hc : phase.complete bytes = (resync, .of (.orphanContinuation bytes.length)) := by
      unfold complete
      rw [he, h.inProgress_nil]
      rfl
    rw [hc]
    exact ⟨[], keeps_resync, Continued.dropped⟩
  · obtain ⟨hu, rfl⟩ := h.eq_partway hp
    rcases front_cases (part ++ bytes) with hc | ⟨f, rest, hf, hc⟩ | hc
    · rw [complete_unfinished hp hc]
      exact ⟨part ++ bytes, keeps_partway hc, Continued.kept fun h => absurd h hp⟩
    · rw [complete_frame hf hc hp hb]
      refine ⟨[], ?_, ?_⟩
      · split
        · exact keeps_fresh
        · exact keeps_resync
      · split <;> exact Continued.completed f rest hp hf hc
    · obtain ⟨header, hs⟩ := step_bogus hc
      have ho : ((partway part).feed bytes).readOne =
          (none, resync, (awaitingHeader (part ++ bytes)).refused header) := by
        rw [feed_bogus hu hc]
        unfold readOne
        rw [hs]
      have hcomplete : (partway part).complete bytes =
          (resync, (awaitingHeader (part ++ bytes)).refused header) := by
        unfold complete
        rw [he, inProgress_partway hp, ho]
        rfl
      rw [hcomplete]
      exact ⟨[], keeps_resync, Continued.dropped⟩

/-- **From a start on frames are read, as many as there are.** -/
theorem restart_started (phase : Phase) (bytes : Bytes) :
    ∃ next, (phase.restart bytes).1.Keeps next ∧
      Started bytes next (phase.restart bytes).2.frames := by
  obtain ⟨done, tail, rfl, hd, ht⟩ := exists_join bytes
  rcases ht with ht | ht
  · rw [restart_join phase hd ht]
    exact ⟨tail, keeps_partway ht, hd, tail, rfl, Or.inl rfl⟩
  · obtain ⟨header, hs⟩ := step_bogus ht
    have hdrive : ∀ steps, drive (steps + 1) (awaitingHeader tail) =
        (resync, (awaitingHeader tail).refused header) := by
      intro steps
      rw [drive, hs]
    have hframes : (phase.restart (join done ++ tail)).2.frames = done := by
      unfold restart
      rw [readAll_join hd hdrive]
      cases phase.inProgress <;> exact List.append_nil done
    refine ⟨[], ?_, ?_⟩
    · unfold restart
      rw [readAll_join hd hdrive]
      exact keeps_resync
    · rw [hframes]
      exact ⟨hd, tail, rfl, Or.inr rfl⟩

theorem continueWith_continued {phase : Phase} {part : Bytes} (h : phase.Keeps part)
    (bytes : Bytes) : ∃ next, (phase.continueWith bytes).1.Keeps next ∧
      Continued part bytes next (phase.continueWith bytes).2.frames := by
  unfold continueWith
  split
  · exact ⟨[], keeps_resync, Continued.dropped⟩
  · exact complete_continued h bytes

theorem leadUp_continued {phase : Phase} {part : Bytes} (h : phase.Keeps part) (bytes : Bytes) :
    ∃ next, (phase.leadUp bytes).1.Keeps next ∧
      Continued part bytes next (phase.leadUp bytes).2.frames := by
  unfold leadUp
  split
  · exact ⟨[], keeps_resync, Continued.dropped⟩
  · exact complete_continued h bytes

/-- **The bytes of a chunk continue the frame in progress up to the first start, and from there
on they are frames.** -/
theorem ingest_taken {phase : Phase} {part : Bytes} (h : phase.Keeps part) (bytes : Bytes)
    {offset : Option Nat} (ho : ∀ o ∈ offset, o ≤ bytes.length) :
    ∃ next, (phase.ingest bytes offset).1.Keeps next ∧
      Taken part bytes offset next (phase.ingest bytes offset).2.frames := by
  cases offset with
  | none =>
    obtain ⟨next, hk, hc⟩ := continueWith_continued h bytes
    exact ⟨next, hk, Taken.continued hc⟩
  | some o =>
    obtain ⟨middle, -, hlead⟩ := leadUp_continued h (bytes.take o)
    obtain ⟨next, hk, hs⟩ := restart_started (phase.leadUp (bytes.take o)).1 (bytes.drop o)
    exact ⟨next, hk, Taken.started (ho o rfl) hlead hs⟩

end Phase

/-! ### What is reported of bytes -/

/-- The diagnostic is put down to the sequence number or the hint of a chunk. -/
def Diagnostic.ofChunk : Diagnostic → Bool
  | duplicateChunk _ => true
  | missingChunks _ _ => true
  | invalidOffset _ _ => true
  | _ => false

/-- The diagnostic tells how bytes were put into frames. -/
def Diagnostic.ofFraming : Diagnostic → Bool
  | misaligned _ => true
  | orphanContinuation _ => true
  | invalidHeader _ _ => true
  | discarded _ => true
  | resynchronized _ => true
  | _ => false

theorem Diagnostic.not_ofChunk_of_ofFraming {d : Diagnostic} (h : d.ofFraming = true) :
    d.ofChunk = false := by
  cases d <;> first | rfl | cases h

/-- Nothing is put down to the sequence number or the hint of a chunk. -/
def Report.Plain (report : Report) : Prop := ∀ d ∈ report.diagnostics, d.ofChunk = false

/-- All that is noted is how bytes were put into frames. -/
def Report.Framing (report : Report) : Prop := ∀ d ∈ report.diagnostics, d.ofFraming = true

namespace Report

theorem plain_empty : empty.Plain := fun _ hd => nomatch hd

theorem plain_of {d : Diagnostic} (h : d.ofChunk = false) : (of d).Plain := by
  intro e he
  rwa [List.mem_singleton.mp he]

theorem Plain.append {r s : Report} (hr : r.Plain) (hs : s.Plain) : (r ++ s).Plain := by
  intro d hd
  rcases List.mem_append.mp hd with hd | hd
  · exact hr d hd
  · exact hs d hd

theorem framing_empty : empty.Framing := fun _ hd => nomatch hd

theorem framing_of {d : Diagnostic} (h : d.ofFraming = true) : (of d).Framing := by
  intro e he
  rwa [List.mem_singleton.mp he]

theorem framing_frame (f : Frame) : (Report.mk [f] []).Framing := fun _ hd => nomatch hd

theorem Framing.append {r s : Report} (hr : r.Framing) (hs : s.Framing) : (r ++ s).Framing := by
  intro d hd
  rcases List.mem_append.mp hd with hd | hd
  · exact hr d hd
  · exact hs d hd

theorem Framing.plain {r : Report} (h : r.Framing) : r.Plain := fun d hd =>
  Diagnostic.not_ofChunk_of_ofFraming (h d hd)

end Report

namespace Phase

open Report

theorem framing_dropped (phase : Phase) : (Report.mk [] phase.dropped).Framing := by
  unfold dropped
  split
  · exact framing_empty
  · exact framing_of rfl

theorem framing_refused (phase : Phase) (header : Header) : (phase.refused header).Framing := by
  intro d hd
  rcases List.mem_cons.mp hd with rfl | hd
  · rfl
  · exact phase.framing_dropped d hd

theorem framing_drive (steps : Nat) (phase : Phase) : (drive steps phase).2.Framing := by
  induction steps generalizing phase with
  | zero => exact framing_empty
  | succ steps ih =>
    unfold drive
    cases phase.step with
    | header next => exact ih next
    | frame f next => exact (framing_frame f).append (ih next)
    | bogus header => exact phase.framing_refused header
    | stalled => exact framing_empty

theorem framing_readOne (phase : Phase) : phase.readOne.2.2.Framing := by
  unfold readOne
  cases phase.step with
  | header body =>
    dsimp only
    split <;> exact framing_empty
  | frame f next => exact framing_empty
  | bogus header => exact phase.framing_refused header
  | stalled => exact framing_empty

theorem framing_complete (phase : Phase) (bytes : Bytes) : (phase.complete bytes).2.Framing := by
  have hone := framing_readOne (phase.feed bytes)
  unfold complete
  split
  · exact framing_empty
  · split
    · generalize (phase.feed bytes).readOne = read at hone
      obtain ⟨frame, next, report⟩ := read
      cases frame with
      | none => exact hone
      | some f =>
        dsimp only
        split
        · exact (framing_frame f).append hone
        · exact ((framing_frame f).append hone).append (framing_of rfl)
    · exact framing_of rfl

theorem framing_restart (phase : Phase) (bytes : Bytes) : (phase.restart bytes).2.Framing := by
  unfold restart
  dsimp only
  split
  · exact (framing_of rfl).append (framing_drive _ _)
  · exact framing_empty.append (framing_drive _ _)

/-- **What a phase reports is how the bytes were put into frames.** -/
theorem framing_ingest (phase : Phase) (bytes : Bytes) (offset : Option Nat) :
    (phase.ingest bytes offset).2.Framing := by
  cases offset with
  | none =>
    show (phase.continueWith bytes).2.Framing
    unfold continueWith
    split
    · exact framing_of rfl
    · exact framing_complete phase bytes
  | some o =>
    have hlead : (phase.leadUp (bytes.take o)).2.Framing := by
      unfold leadUp
      split
      · exact framing_of rfl
      · exact framing_complete phase _
    exact hlead.append (framing_restart _ _)

end Phase

end Log
end FlightLink
