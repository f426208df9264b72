/-
# What bytes parse as

Bytes from a message start on are frames in a row and a rest that begins with no frame, and
they are that in one way only (`Frame.Parses.unique`). A stream finds exactly these frames,
and the rest alone decides what it holds then and what it reports (`Phase.Ends`). The loop that
finds them is followed here step by step and without a bound on its steps (`Phase.Loops`): it
comes to an end, with two steps for each frame and at most two more, and frames without a
payload are no exception (`Stream.ingest_parses`).

Key definitions: `Frame.Parses`, `Phase.Ends`, `Phase.Loops`.
Key theorems: `Frame.Parses.unique`, `Phase.Loops.drive_eq`, `Phase.loops_join`,
`Phase.loops_rest`, `Stream.ingest_parses`.
-/
import FlightLink.Proofs.Log.Call

namespace FlightLink
namespace Log

namespace Frame

/-- The bytes are `frames` in a row and a rest that begins with no frame. -/
structure Parses (bytes : Bytes) (frames : List Frame) (rest : Bytes) : Prop where
  proper : ∀ f ∈ frames, f.Proper
  eq_join : bytes = join frames ++ rest
  no_frame : ∀ (f : Frame) (more : Bytes), f.Proper → rest ≠ f.toBytes ++ more

/-- The frame that bytes begin with is told by the bytes, and so is what follows it. -/
theorem Proper.append_inj {f g : Frame} (hf : f.Proper) (hg : g.Proper) {a b : Bytes}
    (h : f.toBytes ++ a = g.toBytes ++ b) : f = g ∧ a = b := by
  have hone := Phase.readOne_frame hf a (Or.inl rfl)
  rw [h, Phase.readOne_frame hg b (Or.inl rfl)] at hone
  cases hone
  exact ⟨rfl, rfl⟩

theorem Parses.tail {bytes rest : Bytes} {f : Frame} {fs : List Frame}
    (h : Parses bytes (f :: fs) rest) : Parses (join fs ++ rest) fs rest :=
  ⟨fun g hg => h.proper g (List.mem_cons_of_mem f hg), rfl, h.no_frame⟩

/-- **Bytes are frames and a rest in one way only.** -/
theorem Parses.unique : ∀ {frames others : List Frame} {bytes rest remains : Bytes},
    Parses bytes frames rest → Parses bytes others remains → others = frames ∧ remains = rest
  | [], [], _, _, _, h, h' => ⟨rfl, h'.eq_join.symm.trans h.eq_join⟩
  | [], g :: gs, _, rest, remains, h, h' => by
    have hg := h'.eq_join.symm.trans h.eq_join
    rw [join_cons, List.append_assoc] at hg
    exact absurd hg.symm (h.no_frame g _ (h'.proper g List.mem_cons_self))
  | f :: fs, [], _, rest, remains, h, h' => by
    have hf := h.eq_join.symm.trans h'.eq_join
    rw [join_cons, List.append_assoc] at hf
    exact absurd hf.symm (h'.no_frame f _ (h.proper f List.mem_cons_self))
  | f :: fs, g :: gs, _, rest, remains, h, h' => by
    have hfg := h.eq_join.symm.trans h'.eq_join
    rw [join_cons, join_cons, List.append_assoc, List.append_assoc] at hfg
    obtain ⟨rfl, htail⟩ :=
      (h.proper f List.mem_cons_self).append_inj (h'.proper g List.mem_cons_self) hfg
    obtain ⟨rfl, rfl⟩ := Parses.unique h.tail (htail ▸ h'.tail)
    exact ⟨rfl, rfl⟩

end Frame

open Log.Frame

namespace Phase

/-! ### The rest -/

/-- Where reading stops in front of a rest, and what is reported of it. -/
inductive Ends : Bytes → Phase → List Diagnostic → Prop where
  /-- Too little for a header is kept. -/
  | short {rest : Bytes} : rest.length < 3 → Ends rest (awaitingHeader rest) []
  /-- A tag that is no uppercase letter loses track, and all of the rest with it. -/
  | refused {header : Header} (body : Bytes) : ¬ (0x41 ≤ header.tag ∧ header.tag ≤ 0x5a) →
    Ends (header.write ++ body) resync
      [.invalidHeader header.tag header.size, .discarded (header.write ++ body).length]
  /-- Less than the payload is kept behind the header. -/
  | within {header : Header} {body : Bytes} : 0x41 ≤ header.tag ∧ header.tag ≤ 0x5a →
    body.length < header.size.toNat → Ends (header.write ++ body) (awaitingBody header body) []

/-- Where reading finds no frame, none begins. -/
theorem ne_toBytes_of_readOne {rest : Bytes} (h : (awaitingHeader rest).readOne.1 = none)
    (f : Frame) (more : Bytes) (hf : f.Proper) : rest ≠ f.toBytes ++ more := by
  rintro rfl
  rw [readOne_frame hf more (Or.inl rfl)] at h
  cases h

/-- Neither the beginning of a frame nor a header that no frame has is a frame. -/
theorem ne_toBytes_of_rest {rest : Bytes} (h : Unfinished rest ∨ Bogus rest) (f : Frame)
    (more : Bytes) (hf : f.Proper) : rest ≠ f.toBytes ++ more := by
  refine ne_toBytes_of_readOne ?_ f more hf
  rcases h with h | h
  · rw [readOne_unfinished h (Or.inl rfl)]
  · obtain ⟨header, hs⟩ := step_bogus h
    unfold readOne
    rw [hs]

/-! ### The loop -/

/-- Step follows step until one finds nothing more to read. With that one there are so many
steps, and they lead to the phase `last` with the report. -/
inductive Loops : Phase → Nat → Phase → Report → Prop where
  | stalled {phase : Phase} : phase.step = .stalled → Loops phase 1 phase .empty
  | bogus {phase : Phase} {header : Header} : phase.step = .bogus header →
    Loops phase 1 resync (phase.refused header)
  | header {phase next last : Phase} {steps : Nat} {report : Report} :
    phase.step = .header next → Loops next steps last report → Loops phase (steps + 1) last report
  | frame {phase next last : Phase} {f : Frame} {steps : Nat} {report : Report} :
    phase.step = .frame f next → Loops next steps last report →
    Loops phase (steps + 1) last (⟨[f], []⟩ ++ report)

section Loops

variable {phase last : Phase} {steps : Nat} {report : Report}

/-- Reading for at least as many steps as the loop takes is the loop. -/
theorem Loops.drive_eq (h : phase.Loops steps last report) :
    ∀ bound, steps ≤ bound → drive bound phase = (last, report) := by
  induction h with
  | stalled hs => exact fun bound _ => drive_stalled hs bound
  | bogus hs =>
    intro bound hb
    obtain ⟨bound, rfl⟩ := Nat.exists_eq_add_of_le' hb
    rw [drive, hs]
  | header hs _ ih =>
    intro bound hb
    obtain ⟨bound, rfl⟩ := Nat.exists_eq_add_of_le' (Nat.le_trans (Nat.le_add_left 1 _) hb)
    rw [drive, hs]
    exact ih bound (Nat.le_of_succ_le_succ hb)
  | frame hs _ ih =>
    intro bound hb
    obtain ⟨bound, rfl⟩ := Nat.exists_eq_add_of_le' (Nat.le_trans (Nat.le_add_left 1 _) hb)
    rw [drive, hs]
    simp only [ih bound (Nat.le_of_succ_le_succ hb)]

/-- What is read first tells whether the loop goes on, and from where. -/
theorem Loops.goes_on (h : phase.Loops steps last report) :
    match phase.step with
    | .header next => ∃ left report, steps = left + 1 ∧ next.Loops left last report
    | .frame _ next => ∃ left report, steps = left + 1 ∧ next.Loops left last report
    | .bogus _ => steps = 1
    | .stalled => steps = 1 := by
  cases h with
  | stalled hs => rw [hs]
  | bogus hs => rw [hs]
  | header hs hnext =>
    rw [hs]
    exact ⟨_, _, rfl, hnext⟩
  | frame hs hnext =>
    rw [hs]
    exact ⟨_, _, rfl, hnext⟩

/-- The loop takes one number of steps only. -/
theorem Loops.steps_unique {last' : Phase} {steps' : Nat} {report' : Report}
    (h : phase.Loops steps last report) (h' : phase.Loops steps' last' report') :
    steps' = steps := by
  induction h generalizing steps' last' report' with
  | stalled hs =>
    have hend := h'.goes_on
    rwa [hs] at hend
  | bogus hs =>
    have hend := h'.goes_on
    rwa [hs] at hend
  | header hs _ ih =>
    have hnext := h'.goes_on
    rw [hs] at hnext
    obtain ⟨left, _, rfl, hloops⟩ := hnext
    rw [ih hloops]
  | frame hs _ ih =>
    have hnext := h'.goes_on
    rw [hs] at hnext
    obtain ⟨left, _, rfl, hloops⟩ := hnext
    rw [ih hloops]

end Loops

/-- **A frame takes two steps, however long its payload is**: they lead to what stands behind
the frames. -/
theorem loops_join {tail : Bytes} {last : Phase} {steps : Nat} {report : Report}
    (h : (awaitingHeader tail).Loops steps last report) : ∀ done : List Frame,
    (∀ f ∈ done, f.Proper) →
      (awaitingHeader (join done ++ tail)).Loops (2 * done.length + steps) last
        (⟨done, []⟩ ++ report)
  | [], _ => by
    rw [join_nil, List.nil_append, List.length_nil, Nat.mul_zero, Nat.zero_add]
    exact h
  | f :: fs, hd => by
    have hf := hd f List.mem_cons_self
    have ih := loops_join h fs fun g hg => hd g (List.mem_cons_of_mem f hg)
    have hn : 2 * (f :: fs).length + steps = 2 * fs.length + steps + 1 + 1 := by
      rw [List.length_cons]
      omega
    have hheader : step (awaitingHeader (join (f :: fs) ++ tail)) =
        .header (awaitingBody f.header (f.payload ++ (join fs ++ tail))) := by
      rw [join_cons, List.append_assoc, toBytes, List.append_assoc, step_header hf.credible]
    rw [hn]
    exact Loops.header hheader (Loops.frame (step_frame hf.length_payload _) ih)

/-- In front of the rest there are two steps at most. -/
theorem loops_rest {rest : Bytes} (h : Unfinished rest ∨ Bogus rest) :
    ∃ last noted, Ends rest last noted ∧
      ∃ steps ≤ 2, (awaitingHeader rest).Loops steps last ⟨[], noted⟩ := by
  rcases h with h | ⟨header, body, hr, hc⟩
  · rcases h.cases with hs | ⟨header, body, hc, rfl, hb⟩
    · exact ⟨_, _, Ends.short hs, 1, by decide, Loops.stalled (step_short hs)⟩
    · exact ⟨_, _, Ends.within (Header.credible_iff.mp hc) hb, 2, by decide,
        Loops.header (step_header hc body) (Loops.stalled (step_body hb))⟩
  · have hw := Header.write_of_read? hr
    have hstep : step (awaitingHeader rest) = .bogus header := by
      simp only [step, hr, hc, Bool.false_eq_true, if_false]
    have hne : ¬ (awaitingHeader rest).buffered = 0 := by
      rw [hw, buffered, List.length_append, length_write, Header.length]
      omega
    have hreport : (awaitingHeader rest).refused header =
        ⟨[], [.invalidHeader header.tag header.size, .discarded rest.length]⟩ := by
      rw [refused, dropped, if_neg hne, buffered]
    have hends := Ends.refused body (mt Header.credible_iff.mpr (Bool.eq_false_iff.mp hc))
    rw [← hw] at hends
    exact ⟨_, _, hends, 1, by decide, hreport ▸ Loops.bogus hstep⟩

end Phase

/-- **A stream parses exactly what there is.** Any bytes from a message start on are frames and a
rest that begins with no frame, in one way only; a new stream gives these frames, and holds and
reports what the rest asks for. The loop that reads them comes to an end, with at most two steps
for each frame and two more. -/
theorem Stream.ingest_parses (bytes : Bytes) (sequence : Option UInt16) :
    ∃ frames rest, Frame.Parses bytes frames rest ∧
      (∀ others remains, Frame.Parses bytes others remains → others = frames ∧ remains = rest) ∧
      ∃ last noted,
        (Stream.new 0).ingest bytes 0 sequence = (⟨0, sequence, last⟩, ⟨frames, noted⟩) ∧
        Phase.Ends rest last noted ∧
        (∃ steps, (Phase.awaitingHeader bytes).Loops steps last ⟨frames, noted⟩) ∧
        ∀ steps next report, (Phase.awaitingHeader bytes).Loops steps next report →
          steps ≤ 2 * frames.length + 2 := by
  obtain ⟨frames, rest, rfl, hproper, hrest⟩ := exists_join bytes
  have hparses : Frame.Parses (join frames ++ rest) frames rest :=
    ⟨hproper, rfl, Phase.ne_toBytes_of_rest hrest⟩
  obtain ⟨last, noted, hends, steps, hsteps, hloops⟩ := Phase.loops_rest hrest
  have hall := Phase.loops_join hloops frames hproper
  have hframes : Report.mk frames [] ++ Report.mk [] noted = ⟨frames, noted⟩ := by
    show Report.mk (frames ++ []) noted = _
    rw [List.append_nil]
  rw [hframes] at hall
  have hread : (Phase.fresh.feed (join frames ++ rest)).readAll = (last, ⟨frames, noted⟩) := by
    have hlength := Phase.length_le_join frames
    refine hall.drive_eq _ ?_
    show _ ≤ 2 * (join frames ++ rest).length + 2
    rw [List.length_append]
    omega
  have hrestart : Phase.fresh.restart (join frames ++ rest) = (last, ⟨frames, noted⟩) := by
    unfold Phase.restart
    rw [hread]
    rfl
  refine ⟨frames, rest, hparses, fun others remains h => hparses.unique h, last, noted, ?_, hends,
    ⟨_, hall⟩, fun steps' next report h => ?_⟩
  · rw [ingest_new, hrestart]
  · rw [hall.steps_unique h]
    omega

end Log
end FlightLink
