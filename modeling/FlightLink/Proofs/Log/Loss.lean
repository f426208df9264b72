/-
# Chunks lost, repeated and out of order

What comes out when the chunks of a recording come in any order, some of them never and
some of them again. Without the immediate repetitions the numbers of the chunks split into
runs that go up one by one. Within a run the stream knows where it is from the first frame
start on (`Tracks`); between two runs it loses track. So of each run exactly the frames
come out that lie wholly within its chunks (`emitted_runs`).

Key definitions: `runs`, `Recording.framesOf`, `Stream.Tracks`.
Key theorems: `Stream.Tracks.run`, `Stream.intake_apart`, `Recording.emitted_runs`.
-/
import FlightLink.Proofs.Log.Reassembly
import Mathlib.Data.List.SplitBy

namespace FlightLink
namespace Log

open Log.Frame

/-! ### Runs of numbers -/

/-- The numbers without immediate repetitions, split where one does not follow the other. -/
def runs (order : List Nat) : List (List Nat) :=
  (order.destutter (· ≠ ·)).splitBy fun i j => j == i + 1

/-- The second run neither repeats nor continues the first. -/
def Apart (run next : List Nat) : Prop :=
  ∀ i ∈ run.getLast?, ∀ j ∈ next.head?, j ≠ i ∧ j ≠ i + 1

theorem eq_range' : ∀ (run : List Nat) (i : Nat),
    (i :: run).IsChain (fun i j => (j == i + 1) = true) → i :: run = List.range' i (run.length + 1)
  | [], _, _ => rfl
  | j :: run, i, h => by
    obtain ⟨hij, hrun⟩ := List.isChain_cons_cons.mp h
    have hj : j = i + 1 := eq_of_beq hij
    subst hj
    rw [List.range'_succ, List.length_cons, ← eq_range' run (i + 1) hrun]

theorem mem_runs {order run : List Nat} (h : run ∈ runs order) :
    ∃ i k, run = List.range' i (k + 1) := by
  have hc := List.isChain_of_mem_splitBy h
  cases run with
  | nil => exact absurd h (List.nil_notMem_splitBy _ _)
  | cons i run => exact ⟨i, run.length, eq_range' run i hc⟩

theorem flatten_runs (order : List Nat) : (runs order).flatten = order.destutter (· ≠ ·) :=
  List.flatten_splitBy _ _

theorem mem_of_mem_runs {order run : List Nat} (h : run ∈ runs order) {i : Nat} (hi : i ∈ run) :
    i ∈ order := by
  have hf : i ∈ (runs order).flatten := List.mem_flatten.mpr ⟨run, h, hi⟩
  rw [flatten_runs] at hf
  exact (List.destutter_sublist _ order).subset hf

/-- One run ends where the next number is neither the same nor the next. -/
theorem isChain_apart : ∀ {groups : List (List Nat)},
    groups.IsChain (fun run next => ∃ ha hb, (next.head hb == run.getLast ha + 1) = false) →
    groups.IsChain (fun run next => ∀ i ∈ run.getLast?, ∀ j ∈ next.head?, i ≠ j) →
    groups.IsChain Apart
  | [], _, _ => List.isChain_nil
  | [_], _, _ => List.isChain_singleton _
  | run :: next :: groups, h, hne => by
    obtain ⟨⟨ha, hb, hn⟩, ht⟩ := List.isChain_cons_cons.mp h
    obtain ⟨hd, htne⟩ := List.isChain_cons_cons.mp hne
    refine List.isChain_cons_cons.mpr ⟨fun i hi j hj => ⟨(hd i hi j hj).symm, ?_⟩,
      isChain_apart ht htne⟩
    rw [← List.getLast_of_mem_getLast? hi, ← List.head_of_mem_head? hj]
    exact ne_of_beq_false hn

theorem runs_apart (order : List Nat) : (runs order).IsChain Apart := by
  have hne := List.isChain_destutter (· ≠ ·) order
  have hnil : [] ∉ runs order := List.nil_notMem_splitBy _ _
  rw [← flatten_runs, List.isChain_flatten hnil] at hne
  exact isChain_apart (List.isChain_getLast_head_splitBy (fun i j => j == i + 1) _) hne.2

/-- Of a run only its last number matters for what comes after it. -/
theorem isChain_last {i k : Nat} {groups : List (List Nat)}
    (h : (List.range' i (k + 1) :: groups).IsChain Apart) :
    ([i + k] :: groups).IsChain Apart := by
  rw [List.isChain_cons] at h ⊢
  refine ⟨fun next hnext j hj => h.1 next hnext j ?_, h.2⟩
  rw [List.getLast?_range']
  exact hj

theorem head?_destutter' (order : List Nat) (i : Nat) :
    (order.destutter' (· ≠ ·) i).head? = some i := by
  induction order with
  | nil => rfl
  | cons j order ih =>
    by_cases hij : i = j
    · subst hij
      rw [List.destutter'_cons_neg _ (by simp)]
      exact ih
    · rw [List.destutter'_cons_pos _ hij]
      rfl

/-- The first run begins with the first number. -/
theorem head?_runs (order : List Nat) : (runs order).flatten.head? = order.head? := by
  rw [flatten_runs]
  cases order with
  | nil => rfl
  | cons i order => exact head?_destutter' order i

/-! ### Within a run -/

namespace Recording

variable (r : Recording)

/-- The frames that lie wholly within the chunks of a run. -/
def framesOf (run : List Nat) : List Frame :=
  r.framesIn (r.offset (run.headD 0)) (r.offset (run.getLastD 0 + 1))

theorem framesOf_range' (i k : Nat) :
    r.framesOf (List.range' i (k + 1)) = r.framesIn (r.offset i) (r.offset (i + (k + 1))) := by
  have hl : (List.range' i (k + 1)).getLastD 0 = i + k := by
    rw [List.getLastD_eq_getLast?, List.getLast?_range']
    rfl
  rw [framesOf, hl]
  rfl

/-- Before a frame begins there is none to end. -/
theorem framesIn_nil {p q : Nat} (hp : p ≤ r.bytes.length) (h : r.begun p ≤ r.begun q) :
    r.framesIn q p = [] := by
  have hle := Nat.le_trans (r.ended_le_begun hp) h
  rw [framesIn_eq]
  exact List.drop_eq_nil_of_le (Nat.le_trans (List.length_take_le _ _) hle)

theorem begun_le_ended {p q : Nat} (h : r.begun p < r.begun q) : r.begun p ≤ r.ended q := by
  obtain ⟨hn, hs⟩ := (r.begun_lt_iff p q).mp h
  exact r.le_ended (Nat.le_of_lt hn) (Nat.le_of_lt hs)

end Recording

namespace Stream

variable {r : Recording} {p q : Nat} {s : Stream}

/-- The stream knows of a run that began at `q` and has come to `p` what can be known:
nothing while no frame has begun in it, and else where it is. -/
def Tracks (r : Recording) (q p : Nat) (s : Stream) : Prop :=
  s.Idle ∧ r.begun p = r.begun q ∨ s.Follows r p ∧ r.begun q ≤ r.ended p

/-- **A chunk adds the frames that end in it and began in the run.** -/
theorem Tracks.accept {p' : Nat} (h : s.Tracks r q p) (hp : p ≤ p') (hl : p' ≤ r.bytes.length)
    (hc : p' - p ≤ Wire.LogData.capacity) :
    (s.accept (r.between p p') (r.hint p p')).1.Tracks r q p' ∧
      r.framesIn q p ++ (s.accept (r.between p p') (r.hint p p')).2.frames = r.framesIn q p' := by
  rcases h with ⟨hi, hq⟩ | ⟨hf, hq⟩
  · rw [r.framesIn_nil (Nat.le_trans hp hl) (Nat.le_of_eq hq), List.nil_append]
    rcases hi.accept hp hl hc with ⟨hs, hfollows, hframes⟩ | ⟨hs, hidle, hframes⟩
    · refine ⟨Or.inr ⟨hfollows, ?_⟩, ?_⟩
      · rw [← hq]
        exact r.begun_le_ended hs
      · rw [hframes, r.framesIn_eq, hq]
    · refine ⟨Or.inl ⟨hidle, hs.symm.trans hq⟩, ?_⟩
      rw [hframes, r.framesIn_nil hl (Nat.le_of_eq (hs.symm.trans hq))]
  · obtain ⟨hfollows, hreport⟩ := hf.accept hp hl hc
    refine ⟨Or.inr ⟨hfollows, Nat.le_trans hq (r.ended_mono hp)⟩, ?_⟩
    rw [hreport, r.framesIn_eq, r.framesIn_eq]
    exact r.slice_append hq hp

theorem Tracks.intake {i : Nat} (h : s.Tracks r q (r.offset i)) (hb : s.Before r i) :
    (s.intake (r.chunk i)).1.Tracks r q (r.offset (i + 1)) ∧
      r.framesIn q (r.offset i) ++ (s.intake (r.chunk i)).2.frames =
        r.framesIn q (r.offset (i + 1)) := by
  have ht : Tracks r q (r.offset i) { s with lastSequence := some (r.sequence i) } := by
    rcases h with ⟨hi, hq⟩ | ⟨hf, hq⟩
    · exact Or.inl ⟨⟨hi.headerLeft_eq, hi.inProgress_eq⟩, hq⟩
    · exact Or.inr ⟨⟨hf.headerLeft_eq, hf.phase_eq⟩, hq⟩
  rw [intake_chunk hb]
  exact ht.accept (r.offset_le_succ i) (r.offset_le_length (i + 1)) (r.offset_succ_sub_le i)

/-- **The chunks of a run add the frames that lie within it.** -/
theorem Tracks.run : ∀ (k : Nat) {i : Nat} {s : Stream}, s.Tracks r q (r.offset i) →
    s.Before r i →
    r.framesIn q (r.offset i) ++ s.emitted ((List.range' i k).map r.chunk) =
      r.framesIn q (r.offset (i + k))
  | 0, _, _, _, _ => List.append_nil _
  | k + 1, i, s, h, hb => by
    obtain ⟨ht, hframes⟩ := h.intake hb
    have hk : i + 1 + k = i + (k + 1) := by omega
    rw [List.range'_succ, List.map_cons, emitted_cons, ← List.append_assoc, hframes,
      ht.run k (before_succ i s), hk]

/-- A run gives its frames, whatever number it starts at. -/
theorem Tracks.whole {i : Nat} (h : s.Tracks r (r.offset i) (r.offset i)) (hb : s.Before r i)
    (k : Nat) :
    s.emitted ((List.range' i (k + 1)).map r.chunk) = r.framesOf (List.range' i (k + 1)) := by
  have hrun := h.run (k + 1) hb
  have hnil : r.framesIn (r.offset i) (r.offset i) = [] :=
    r.framesIn_nil (r.offset_le_length i) (Nat.le_refl _)
  rwa [hnil, List.nil_append, ← r.framesOf_range'] at hrun

theorem lastSequence_run (k i : Nat) (s : Stream) :
    (s.after ((List.range' i (k + 1)).map r.chunk)).lastSequence = some (r.sequence (i + k)) := by
  induction k generalizing i s with
  | zero => exact lastSequence_intake s (r.sequence_chunk i)
  | succ k ih =>
    have hk : i + 1 + k = i + (k + 1) := by omega
    rw [List.range'_succ, List.map_cons, after, ih (i + 1), hk]

/-! ### From run to run -/

/-- Numbers of chunks are told apart by their sequence numbers. -/
theorem sequence_ne {i j : Nat} (hi : i < 65536) (hj : j < 65536) (h : i ≠ j) :
    r.sequence i ≠ r.sequence j := by
  intro he
  have hn := congrArg UInt16.toNat (UInt16.add_right_inj r.first |>.mp he)
  rw [UInt16.toNat_ofNat', UInt16.toNat_ofNat', Nat.mod_eq_of_lt hi, Nat.mod_eq_of_lt hj] at hn
  exact h hn

/-- **A chunk that does not follow the last one is taken in as after losing track.** -/
theorem intake_apart {b i : Nat} (hl : s.lastSequence = some (r.sequence b)) (hb : b < 65535)
    (hi : i < 65535) (hne : i ≠ b) (hsucc : i ≠ b + 1) :
    ∃ t : Stream, t.Tracks r (r.offset i) (r.offset i) ∧ t.Before r i ∧
      (s.intake (r.chunk i)).1 = (t.intake (r.chunk i)).1 ∧
      (s.intake (r.chunk i)).2.frames = (t.intake (r.chunk i)).2.frames := by
  have hd : r.sequence i ≠ r.sequence b := sequence_ne (by omega) (by omega) hne
  have hn : r.sequence i ≠ r.sequence b + 1 := by
    rw [← r.sequence_succ]
    exact sequence_ne (by omega) (by omega) hsucc
  have hbefore : Before r i { s.loseTrack with lastSequence := none } := fun _ h => nomatch h
  have hgap : s.arrival (r.chunk i).sequence = .gap (r.sequence b + 1) (r.sequence i) :=
    arrival_gap hl hd hn
  refine ⟨{ s.loseTrack with lastSequence := none }, Or.inl ⟨idle_loseTrack s none, rfl⟩, hbefore,
    ?_, ?_⟩
  · rw [intake_gap hgap, intake_inOrder (arrival_inOrder hbefore)]
    rfl
  · rw [intake_gap hgap, intake_inOrder (arrival_inOrder hbefore)]
    rfl

/-- A run apart from the last chunk gives its frames. -/
theorem emitted_apart {b i k : Nat} (hl : s.lastSequence = some (r.sequence b)) (hb : b < 65535)
    (hi : i < 65535) (hne : i ≠ b) (hsucc : i ≠ b + 1) :
    s.emitted ((List.range' i (k + 1)).map r.chunk) = r.framesOf (List.range' i (k + 1)) := by
  obtain ⟨t, ht, hbefore, hstream, hframes⟩ := intake_apart hl hb hi hne hsucc
  rw [← ht.whole hbefore, List.range'_succ, List.map_cons, emitted_cons, emitted_cons, hstream,
    hframes]

theorem emitted_groups : ∀ (groups : List (List Nat)) {b : Nat} {s : Stream},
    s.lastSequence = some (r.sequence b) → b < 65535 →
    (∀ run ∈ groups, ∃ i k, run = List.range' i (k + 1) ∧ i + k < 65535) →
    ([b] :: groups).IsChain Apart →
    s.emitted (groups.flatten.map r.chunk) = groups.flatMap r.framesOf
  | [], _, _, _, _, _, _ => rfl
  | run :: groups, b, s, hl, hb, hg, hc => by
    obtain ⟨hapart, hrest⟩ := List.isChain_cons_cons.mp hc
    obtain ⟨i, k, rfl, hk⟩ := hg run (List.mem_cons_self ..)
    obtain ⟨hne, hsucc⟩ := hapart b rfl i rfl
    have hmore := fun run hrun => hg run (List.mem_cons_of_mem _ hrun)
    rw [List.flatten_cons, List.map_append, emitted_append, List.flatMap_cons,
      emitted_apart hl hb (by omega) hne hsucc,
      emitted_groups groups (lastSequence_run k i s) hk hmore (isChain_last hrest)]

/-- A new stream tracks a run that begins the recording, or any run if there is no file
header. -/
theorem tracks_new {i : Nat} (h : 0 < r.header.length → i = 0) :
    (Stream.new r.header.length).Tracks r (r.offset i) (r.offset i) := by
  by_cases hh : 0 < r.header.length
  · have hi : i = 0 := h hh
    subst hi
    refine Or.inr ⟨follows_new r, ?_⟩
    have h0 : r.begun (r.offset 0) = 0 := r.begun_of_le (Nat.zero_le r.header.length)
    rw [h0]
    exact Nat.zero_le _
  · exact Or.inl ⟨⟨Nat.eq_zero_of_not_pos hh, rfl⟩, rfl⟩

end Stream

/-- **Of each run of chunks that went up one by one the frames come out that lie wholly
within it, and nothing else.** -/
theorem Recording.emitted_runs (r : Recording) (order : List Nat)
    (hn : r.pieces.length ≤ 65535) (ho : ∀ i ∈ order, i < r.pieces.length)
    (hh : 0 < r.header.length → ∀ i ∈ order.head?, i = 0) :
    (Stream.new r.header.length).emitted (order.map r.chunk) =
      (runs order).flatMap r.framesOf := by
  rw [Stream.emitted_destutter order _ r.sequence_chunk, ← flatten_runs]
  have hg : ∀ run ∈ runs order, ∃ i k, run = List.range' i (k + 1) ∧ i + k < 65535 := by
    intro run hrun
    obtain ⟨i, k, rfl⟩ := mem_runs hrun
    have hmem : i + k ∈ List.range' i (k + 1) := List.mem_range'_1.mpr (by omega)
    exact ⟨i, k, rfl, Nat.lt_of_lt_of_le (ho _ (mem_of_mem_runs hrun hmem)) hn⟩
  rw [← head?_runs] at hh
  have hapart := runs_apart order
  cases hr : runs order with
  | nil => rfl
  | cons run groups =>
    rw [hr] at hg hapart hh
    obtain ⟨i, k, rfl, hk⟩ := hg run (List.mem_cons_self ..)
    have hnew := Stream.tracks_new fun hpos => (hh hpos i rfl : i = 0)
    have hmore := fun run hrun => hg run (List.mem_cons_of_mem _ hrun)
    rw [List.flatten_cons, List.map_append, Stream.emitted_append, List.flatMap_cons,
      hnew.whole (fun _ hl => nomatch hl),
      Stream.emitted_groups groups (Stream.lastSequence_run k i _) hk hmore (isChain_last hapart)]

/-- Without the middle chunk the frame that it is part of is gone, and no other. -/
theorem Recording.emitted_runs_small :
    (Stream.new small.header.length).emitted ([0, 0, 2].map small.chunk) =
      [⟨79, [7, 0]⟩, ⟨82, [1, 2]⟩] :=
  (emitted_runs small [0, 0, 2] (by decide) (by decide) fun _ i hi => by cases hi; rfl).trans
    (by decide)

end Log
end FlightLink
