/-
# Reassembly does not depend on the cut

When all chunks of a recording come in order, each once or several times in a row, then
at any moment the frames that came out are those whose last byte has come, and the state
is exactly what has come of the next one (`reassembly`). Besides the file header and the
repetitions there is nothing to report. How the log was cut plays no part in this.

Key definitions: `Recording.inTurn`, `Recording.come`.
Key theorems: `Recording.reassembly`, `Stream.Follows.run`.
-/
import FlightLink.Proofs.Log.Following
import Mathlib.Algebra.GroupWithZero.Nat

namespace FlightLink
namespace Log

open Log.Frame

namespace Recording

variable (r : Recording)

/-- The numbers of all chunks in turn, number `i` followed by `again i` repetitions. -/
def inTurn (again : Nat → Nat) : List Nat :=
  (List.range r.pieces.length).flatMap fun i => List.replicate (again i + 1) i

/-- The bytes that have come with chunks, those of a repetition not counted again. -/
def come (order : List Nat) : Bytes :=
  (order.destutter (· ≠ ·)).flatMap fun i => (r.chunk i).data

theorem sum_headerIn (low high : Nat) :
    ((r.headerIn low high).map Diagnostic.headerBytes).sum = min r.header.length high - low := by
  rw [headerIn]
  split
  · rename_i h
    rw [h]
    rfl
  · simp [Diagnostic.headerBytes]

theorem mem_headerIn {low high : Nat} {d : Diagnostic} (h : d ∈ r.headerIn low high) :
    ∃ n, d = .fileHeaderStripped n := by
  rw [headerIn] at h
  split at h
  · cases h
  · exact ⟨_, List.mem_singleton.mp h⟩

theorem flatMap_data : ∀ k i : Nat, (List.range' i k).flatMap (fun j => (r.chunk j).data) =
    r.between (r.offset i) (r.offset (i + k))
  | 0, i => by
    rw [Nat.add_zero, between_self]
    rfl
  | k + 1, i => by
    have hle := r.offset_mono (Nat.le_add_right (i + 1) k)
    rw [List.range'_succ, List.flatMap_cons, flatMap_data k (i + 1), r.data_chunk,
      r.between_append (r.offset_le_succ i) hle (r.offset_le_length _), Nat.add_right_comm,
      Nat.add_assoc]

/-! ### Chunks in turn -/

/-- More of the same number adds nothing. -/
theorem destutter'_replicate (order : List Nat) (i n : Nat) :
    (List.replicate n i ++ order).destutter' (· ≠ ·) i = order.destutter' (· ≠ ·) i := by
  induction n with
  | zero => rfl
  | succ n ih =>
    rw [List.replicate_succ, List.cons_append, List.destutter'_cons_neg _ (by simp)]
    exact ih

/-- Without the repetitions the numbers go up one by one. -/
theorem destutter'_range' (again : Nat → Nat) : ∀ n i : Nat,
    ((List.range' (i + 1) n).flatMap fun j => List.replicate (again j + 1) j).destutter' (· ≠ ·) i =
      List.range' i (n + 1)
  | 0, _ => rfl
  | n + 1, i => by
    rw [List.range'_succ, List.flatMap_cons, List.replicate_succ, List.cons_append,
      List.destutter'_cons_pos _ (by omega), destutter'_replicate,
      destutter'_range' again n (i + 1)]
    rfl

theorem destutter_inTurn (again : Nat → Nat) :
    (r.inTurn again).destutter (· ≠ ·) = List.range' 0 r.pieces.length := by
  rw [inTurn, List.range_eq_range']
  cases r.pieces.length with
  | zero => rfl
  | succ n =>
    rw [List.range'_succ, List.flatMap_cons, List.replicate_succ, List.cons_append,
      List.destutter_cons', destutter'_replicate, destutter'_range', List.range'_succ]

/-- What is kept of the first numbers is kept first. -/
theorem destutter'_initial (rest : List Nat) : ∀ (order : List Nat) (i : Nat),
    order.destutter' (· ≠ ·) i <+: (order ++ rest).destutter' (· ≠ ·) i
  | [], i => by
    induction rest with
    | nil => exact List.prefix_rfl
    | cons j rest ih =>
      by_cases hij : i = j
      · subst hij
        rwa [List.nil_append, List.destutter'_cons_neg _ (by simp)]
      · rw [List.nil_append, List.destutter'_cons_pos _ hij]
        exact List.prefix_append [i] _
  | j :: order, i => by
    by_cases hij : i = j
    · subst hij
      rw [List.cons_append, List.destutter'_cons_neg _ (by simp),
        List.destutter'_cons_neg _ (by simp)]
      exact destutter'_initial rest order i
    · rw [List.cons_append, List.destutter'_cons_pos _ hij, List.destutter'_cons_pos _ hij]
      exact (List.prefix_cons_inj i).mpr (destutter'_initial rest order j)

/-- At any moment the first chunks have come. -/
theorem destutter_take (again : Nat → Nat) (count : Nat) :
    ∃ k, ((r.inTurn again).take count).destutter (· ≠ ·) = List.range' 0 k := by
  have ht := List.take_append_drop count (r.inTurn again)
  have hall := r.destutter_inTurn again
  cases ho : (r.inTurn again).take count with
  | nil => exact ⟨0, rfl⟩
  | cons i order =>
    rw [ho] at ht
    have hp := destutter'_initial ((r.inTurn again).drop count) order i
    rw [← List.destutter_cons', ← List.destutter_cons', ← List.cons_append, ht, hall] at hp
    have hle := hp.length_le
    rw [List.length_range'] at hle
    exact ⟨_, (List.prefix_iff_eq_take.mp hp).trans (List.take_range'_of_length_ge hle)⟩

end Recording

namespace Stream

variable {r : Recording}

/-- **Chunks in order take a following stream on, and the frames that end in them come out.** -/
theorem Follows.run : ∀ (k : Nat) {i : Nat} {s : Stream}, s.Follows r (r.offset i) →
    s.Before r i →
    (s.after ((List.range' i k).map r.chunk)).Follows r (r.offset (i + k)) ∧
      s.emitted ((List.range' i k).map r.chunk) =
        (r.frames.take (r.ended (r.offset (i + k)))).drop (r.ended (r.offset i)) ∧
      (∀ d ∈ s.noted ((List.range' i k).map r.chunk), ∃ n, d = .fileHeaderStripped n) ∧
      ((s.noted ((List.range' i k).map r.chunk)).map Diagnostic.headerBytes).sum =
        min r.header.length (r.offset (i + k)) - r.offset i
  | 0, i, s, h, _ => by
    refine ⟨h, ?_, fun d hd => ?_, ?_⟩
    · rw [Nat.add_zero, List.drop_eq_nil_of_le (List.length_take_le _ _)]
      rfl
    · cases hd
    · rw [Nat.add_zero]
      exact (Nat.sub_eq_zero_of_le (Nat.min_le_right _ _)).symm
  | k + 1, i, s, h, hb => by
    obtain ⟨hf, hr⟩ := h.intake hb
    obtain ⟨hfollows, hemitted, hkinds, hsum⟩ := Follows.run k hf (before_succ i s)
    have hk : i + 1 + k = i + (k + 1) := by omega
    have hi : r.offset i ≤ r.offset (i + 1) := r.offset_le_succ i
    rw [hk] at hfollows hemitted hsum
    rw [List.range'_succ, List.map_cons]
    refine ⟨hfollows, ?_, fun d hd => ?_, ?_⟩
    · rw [emitted_cons, hr, hemitted, r.slice_append (r.ended_mono hi) (r.offset_mono (by omega))]
    · rw [noted_cons, hr, List.mem_append] at hd
      rcases hd with hd | hd
      · exact r.mem_headerIn hd
      · exact hkinds d hd
    · have hle : r.offset (i + 1) ≤ r.offset (i + (k + 1)) := r.offset_mono (by omega)
      rw [noted_cons, hr, List.map_append, List.sum_append, hsum, r.sum_headerIn]
      omega

end Stream

namespace Recording

variable (r : Recording) {order : List Nat} {k : Nat}

/-! ### Any number of repetitions -/

theorem come_of_destutter (h : order.destutter (· ≠ ·) = List.range' 0 k) :
    r.come order = r.bytes.take (r.offset k) := by
  have hd := r.flatMap_data k 0
  rw [Nat.zero_add] at hd
  rw [come, h, hd]
  rfl

theorem length_come (h : order.destutter (· ≠ ·) = List.range' 0 k) :
    (r.come order).length = r.offset k := by
  rw [r.come_of_destutter h, List.length_take, Nat.min_eq_left (r.offset_le_length k)]

theorem framesIn_zero (place : Nat) : r.framesIn 0 place = r.frames.take (r.ended place) := by
  rw [framesIn_eq, r.begun_of_le (Nat.zero_le _), List.drop_zero]

/-- The part of a frame that a place cuts is what stands behind the frames before it. -/
theorem partAt_eq (place : Nat) : r.partAt place =
    (r.bytes.take place).drop (r.header.length + (join (r.framesIn 0 place)).length) := by
  rw [framesIn_zero, partAt, between, start, Layout.start_eq]

/-- The first chunks, each once. -/
theorem run_new (k : Nat) :
    ((Stream.new r.header.length).after ((List.range' 0 k).map r.chunk)).Follows r (r.offset k) ∧
      (Stream.new r.header.length).emitted ((List.range' 0 k).map r.chunk) =
        r.framesIn 0 (r.offset k) ∧
      (∀ d ∈ (Stream.new r.header.length).noted ((List.range' 0 k).map r.chunk),
        ∃ n, d = .fileHeaderStripped n) ∧
      (((Stream.new r.header.length).noted ((List.range' 0 k).map r.chunk)).map
        Diagnostic.headerBytes).sum = min r.header.length (r.offset k) := by
  have hb : (Stream.new r.header.length).Before r 0 := fun _ hl => nomatch hl
  obtain ⟨hf, he, hk, hs⟩ := (Stream.follows_new r).run k hb
  have h0 : r.ended (r.offset 0) = 0 := r.ended_of_le (Nat.zero_le r.header.length)
  rw [Nat.zero_add] at hf he hs
  rw [h0, List.drop_zero] at he
  rw [framesIn_zero]
  exact ⟨hf, he, hk, hs⟩

theorem after_order (h : order.destutter (· ≠ ·) = List.range' 0 k) :
    ((Stream.new r.header.length).after (order.map r.chunk)).Follows r (r.offset k) := by
  rw [Stream.after_destutter order _ r.sequence_chunk, h]
  exact (r.run_new k).1

theorem emitted_order (h : order.destutter (· ≠ ·) = List.range' 0 k) :
    (Stream.new r.header.length).emitted (order.map r.chunk) = r.framesIn 0 (r.offset k) := by
  calc (Stream.new r.header.length).emitted (order.map r.chunk)
      = (Stream.new r.header.length).emitted ((order.destutter (· ≠ ·)).map r.chunk) :=
        Stream.emitted_destutter order _ r.sequence_chunk
    _ = (Stream.new r.header.length).emitted ((List.range' 0 k).map r.chunk) := by rw [h]
    _ = r.framesIn 0 (r.offset k) := (r.run_new k).2.1

/-- Besides the file header only repetitions are reported. -/
theorem noted_order (h : order.destutter (· ≠ ·) = List.range' 0 k) :
    ∀ d ∈ (Stream.new r.header.length).noted (order.map r.chunk),
      (∃ n, d = .fileHeaderStripped n) ∨ ∃ n, d = .duplicateChunk n := by
  intro d hd
  by_cases hdup : d.isDuplicate = true
  · cases d with
    | duplicateChunk n => exact Or.inr ⟨n, rfl⟩
    | _ => cases hdup
  · have hnot : (!d.isDuplicate) = true := by rw [Bool.eq_false_iff.mpr hdup]; rfl
    have hother := List.mem_filter (p := (!·.isDuplicate)).mpr ⟨hd, hnot⟩
    rw [Stream.notedOther_destutter order _ r.sequence_chunk, h] at hother
    exact Or.inl ((r.run_new k).2.2.1 d (List.mem_of_mem_filter hother))

/-- A repetition tells of no bytes of the file header. -/
theorem sum_filter_isDuplicate (ds : List Diagnostic) :
    ((ds.filter (!·.isDuplicate)).map Diagnostic.headerBytes).sum =
      (ds.map Diagnostic.headerBytes).sum := by
  induction ds with
  | nil => rfl
  | cons d ds ih =>
    cases d with
    | duplicateChunk n =>
      rw [List.filter_cons_of_neg Bool.false_ne_true, ih, List.map_cons, List.sum_cons]
      exact (Nat.zero_add _).symm
    | _ =>
      rw [List.filter_cons_of_pos rfl, List.map_cons, List.sum_cons, ih, List.map_cons,
        List.sum_cons]

theorem sum_order (h : order.destutter (· ≠ ·) = List.range' 0 k) :
    (((Stream.new r.header.length).noted (order.map r.chunk)).map Diagnostic.headerBytes).sum =
      min r.header.length (r.offset k) := by
  rw [← sum_filter_isDuplicate,
    Stream.notedOther_destutter order _ r.sequence_chunk, h,
    sum_filter_isDuplicate]
  exact (r.run_new k).2.2.2

/-- Every repetition is reported once. -/
theorem countP_order (h : order.destutter (· ≠ ·) = List.range' 0 k) :
    ((Stream.new r.header.length).noted (order.map r.chunk)).countP (·.isDuplicate) +
      (order.destutter (· ≠ ·)).length = order.length := by
  rw [Stream.duplicates_destutter order _ r.sequence_chunk, h,
    List.countP_eq_zero.mpr fun d hd => ?_, Nat.zero_add]
  obtain ⟨n, rfl⟩ := (r.run_new k).2.2.1 d hd
  exact Bool.false_ne_true

/-- **What has come out at any moment are the frames whose last byte has come, and the state
holds what has come of the next.** Only the file header and repetitions are reported, the
header to its last byte and each repetition once. -/
theorem reassembly (again : Nat → Nat) (count : Nat) :
    let order := (r.inTurn again).take count
    let stream := Stream.new r.header.length
    let place := (r.come order).length
    stream.emitted (order.map r.chunk) = r.framesIn 0 place ∧
      (stream.after (order.map r.chunk)).headerLeft = r.header.length - place ∧
      (stream.after (order.map r.chunk)).phase = .partway
        ((r.come order).drop (r.header.length + (join (r.framesIn 0 place)).length)) ∧
      (∀ d ∈ stream.noted (order.map r.chunk),
        (∃ n, d = .fileHeaderStripped n) ∨ ∃ n, d = .duplicateChunk n) ∧
      ((stream.noted (order.map r.chunk)).map Diagnostic.headerBytes).sum =
        min r.header.length place ∧
      (stream.noted (order.map r.chunk)).countP (·.isDuplicate) +
        (order.destutter (· ≠ ·)).length = order.length := by
  intro order stream place
  obtain ⟨k, hk⟩ := r.destutter_take again count
  have hplace : place = r.offset k := r.length_come hk
  have hfollows := r.after_order hk
  rw [hplace]
  refine ⟨r.emitted_order hk, hfollows.headerLeft_eq, ?_, r.noted_order hk, r.sum_order hk,
    r.countP_order hk⟩
  rw [r.come_of_destutter hk, ← partAt_eq]
  exact hfollows.phase_eq

/-- The small recording, its first chunk twice. -/
example : (Stream.new 1).emitted ([0, 0, 1, 2].map small.chunk) = small.frames := by decide

end Recording

end Log
end FlightLink
