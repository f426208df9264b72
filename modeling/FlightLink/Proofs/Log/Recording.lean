/-
# A log cut into chunks

A recording is a log as its sender has it: a file header, frames behind it, and the cut of
both into numbered chunks. Each chunk carries the offset of the first frame that begins
in it. What a receiver can know at a place of the recording is computed from the
recording alone: the frames that ended by there and the part of the next one (`partAt`).

Key definitions: `Recording`, `Recording.chunk`, `Recording.firstStart`, `Recording.hint`,
`Recording.partAt`, `Recording.framesIn`.
Key theorems: `Recording.unfinished_partAt`, `Recording.between_partAt`,
`Recording.ofByte_hint`, `Recording.data_chunk`.
-/
import FlightLink.Proofs.Log.Partway
import FlightLink.Proofs.Log.Run
import Mathlib.Order.Monotone.Basic

namespace FlightLink
namespace Log

/-- A log and its cut into chunks. -/
structure Recording where
  header : Bytes
  frames : List Frame
  /-- The data of the chunks. -/
  pieces : List Bytes
  /-- The sequence number of the first chunk. -/
  first : UInt16
  proper : ∀ f ∈ frames, f.Proper
  cut : pieces.flatten = header ++ Frame.join frames
  fits : ∀ piece ∈ pieces, piece.length ≤ Wire.LogData.capacity

namespace Recording

open Log.Frame

variable (r : Recording)

/-- The log as one byte string. -/
def bytes : Bytes := r.header ++ join r.frames

/-- Where frame number `k` begins. -/
def start (k : Nat) : Nat := Layout.start r.header.length r.frames k

/-- How many frames begin before a place. -/
def begun (place : Nat) : Nat := Layout.begun r.header.length r.frames place

/-- How many frames end by a place. -/
def ended (place : Nat) : Nat := Layout.ended r.header.length r.frames place

/-- The frames that lie wholly between two places. -/
def framesIn (low high : Nat) : List Frame := Layout.within r.header.length r.frames low high

/-- The bytes between two places. -/
def between (low high : Nat) : Bytes := (r.bytes.take high).drop low

/-- The bytes of the frame that a place cuts. -/
def partAt (place : Nat) : Bytes := r.between (r.start (r.ended place)) place

/-- Where chunk number `i` begins. -/
def offset (i : Nat) : Nat := (r.pieces.take i).flatten.length

/-- The offset, from the first of two places, of the first frame that begins between them. -/
def firstStart (low high : Nat) : Option Nat :=
  (((Layout.placed r.header.length r.frames).map Prod.fst).find?
    fun x => low ≤ x ∧ x < high).map (· - low)

/-- That offset as a chunk has it. -/
def hint (low high : Nat) : UInt8 :=
  match r.firstStart low high with
  | some offset => UInt8.ofNat offset
  | none => Wire.LogData.noMessageStart

/-- The sequence number of chunk number `i`; past the last one they start again at zero. -/
def sequence (i : Nat) : UInt16 := r.first + UInt16.ofNat i

/-- Chunk number `i`. -/
def chunk (i : Nat) : Intake where
  data := r.pieces.getD i []
  hint := r.hint (r.offset i) (r.offset (i + 1))
  sequence := some (r.sequence i)

/-! ### Places -/

theorem length_bytes : r.bytes.length = r.start r.frames.length := by
  rw [bytes, List.length_append, start, Layout.start_length]

theorem start_mono {j k : Nat} (h : j ≤ k) : r.start j ≤ r.start k := Layout.start_mono _ _ h

theorem start_le_length {k : Nat} (h : k ≤ r.frames.length) : r.start k ≤ r.bytes.length := by
  rw [length_bytes]
  exact r.start_mono h

theorem ended_le_length (place : Nat) : r.ended place ≤ r.frames.length :=
  Layout.ended_le_length _ _ _

theorem framesIn_eq (low high : Nat) :
    r.framesIn low high = (r.frames.take (r.ended high)).drop (r.begun low) :=
  Layout.within_eq _ _ _ _

theorem length_between {low high : Nat} (h : high ≤ r.bytes.length) :
    (r.between low high).length = high - low := by
  rw [between, List.length_drop, List.length_take, Nat.min_eq_left h]

theorem between_self (place : Nat) : r.between place place = [] :=
  List.drop_eq_nil_of_le (List.length_take_le _ _)

theorem between_of_le {low high : Nat} (h : high ≤ low) : r.between low high = [] :=
  List.drop_eq_nil_of_le (Nat.le_trans (List.length_take_le _ _) h)

theorem between_append {a b c : Nat} (hab : a ≤ b) (hbc : b ≤ c) (hb : b ≤ r.bytes.length) :
    r.between a b ++ r.between b c = r.between a c := Layout.slice_append hab hbc hb

theorem take_start (k : Nat) : r.bytes.take (r.start k) = r.header ++ join (r.frames.take k) := by
  have hs : r.start k = (r.header ++ join (r.frames.take k)).length := by
    rw [start, Layout.start_eq, List.length_append]
  have hb : r.bytes = r.header ++ join (r.frames.take k) ++ join (r.frames.drop k) := by
    rw [bytes, List.append_assoc, ← join_append, List.take_append_drop]
  rw [hs, hb, List.take_left]

/-- From the start of one frame to the start of another stand the frames numbered so. -/
theorem between_start {a k : Nat} (h : a ≤ k) :
    r.between (r.start a) (r.start k) = join ((r.frames.take k).drop a) := by
  have hs : r.start a = (r.header ++ join (r.frames.take a)).length := by
    rw [start, Layout.start_eq, List.length_append]
  have ht := List.take_append_drop a (r.frames.take k)
  rw [List.take_take, Nat.min_eq_left h] at ht
  rw [between, take_start, ← ht, join_append, ← List.append_assoc, hs, List.drop_left, ht]

theorem between_frame {k : Nat} (h : k < r.frames.length) :
    r.between (r.start k) (r.start (k + 1)) = r.frames[k].toBytes := by
  rw [between_start r (Nat.le_succ k), List.take_succ_eq_append_getElem h,
    List.drop_left' (by rw [List.length_take]; omega)]
  exact List.append_nil _

/-! ### What has come by a place -/

theorem proper_slice (a k : Nat) : ∀ f ∈ (r.frames.take k).drop a, f.Proper := fun f hf =>
  r.proper f (List.mem_of_mem_take (List.mem_of_mem_drop hf))

/-- Before the first frame there is no part of one. -/
theorem partAt_of_le {place : Nat} (h : place ≤ r.header.length) : r.partAt place = [] :=
  r.between_of_le (Nat.le_trans h (Layout.base_le_start _ _ _))

/-- The frame that a place cuts is not finished there. -/
theorem unfinished_partAt {place : Nat} (h : place ≤ r.bytes.length) :
    Unfinished (r.partAt place) := by
  by_cases hp : place ≤ r.start (r.ended place)
  · rw [partAt, r.between_of_le hp]
    exact unfinished_nil
  · have hn : r.ended place < r.frames.length := by
      refine Nat.lt_of_le_of_ne (r.ended_le_length place) fun he => ?_
      rw [length_bytes, ← he] at h
      exact hp h
    have hlt : place < r.start (r.ended place + 1) := Layout.lt_start_ended _ _ _ hn
    have hle := r.start_le_length (show r.ended place + 1 ≤ r.frames.length from hn)
    refine ⟨r.frames[r.ended place], r.between place (r.start (r.ended place + 1)),
      r.proper _ (List.getElem_mem hn), ?_, ?_⟩
    · rw [partAt, r.between_append (by omega) (by omega) h, r.between_frame hn]
    · refine List.ne_nil_of_length_pos ?_
      rw [r.length_between hle]
      omega

/-- From the start of a frame to a place stand the frames that ended by there and the part
of the next. -/
theorem between_partAt {a place : Nat} (ha : a ≤ r.ended place) (hb : r.header.length ≤ place)
    (hp : place ≤ r.bytes.length) :
    r.between (r.start a) place =
      join ((r.frames.take (r.ended place)).drop a) ++ r.partAt place := by
  have hs : r.start (r.ended place) ≤ place := Layout.start_ended_le _ hb
  rw [← r.between_start ha, partAt, r.between_append (r.start_mono ha) hs (by omega)]

/-! ### Hints -/

theorem firstStart_eq (low high : Nat) :
    r.firstStart low high =
      if r.begun low < r.frames.length ∧ r.start (r.begun low) < high then
        some (r.start (r.begun low) - low)
      else none := by
  have hf : ((Layout.placed r.header.length r.frames).map Prod.fst).find?
      (fun x => low ≤ x ∧ x < high) = if r.begun low < r.frames.length ∧
        r.start (r.begun low) < high then some (r.start (r.begun low)) else none :=
    Layout.find_start _ _ _ _
  rw [firstStart, hf]
  split <;> rfl

theorem firstStart_lt {low high offset : Nat} (h : r.firstStart low high = some offset) :
    offset < high - low := by
  rw [firstStart_eq] at h
  split at h
  · rename_i hc
    have hle : low ≤ r.start (r.begun low) := Layout.le_start_begun _ _ _ hc.1
    cases h
    omega
  · cases h

/-- A chunk's hint is read as the place of the first frame that begins in the chunk. -/
theorem ofByte_hint {low high : Nat} (h : high - low ≤ Wire.LogData.capacity) :
    Hint.ofByte (r.hint low high) (high - low) =
      match r.firstStart low high with
      | some offset => .start offset
      | none => .noStart := by
  rw [hint]
  cases hf : r.firstStart low high with
  | none => rfl
  | some offset =>
    have hlt := r.firstStart_lt hf
    have hcap : offset < 249 := Nat.lt_of_lt_of_le hlt h
    have hn : (UInt8.ofNat offset).toNat = offset :=
      UInt8.toNat_ofNat_of_lt (Nat.lt_trans hcap (by decide))
    have hne : UInt8.ofNat offset ≠ Wire.LogData.noMessageStart := by
      intro he
      rw [he] at hn
      have : Wire.LogData.noMessageStart.toNat = 255 := rfl
      omega
    simp only [Hint.ofByte, if_neg hne, hn]
    rw [if_pos (Nat.le_of_lt hlt)]

/-! ### Chunks -/

theorem sequence_chunk (i : Nat) : (r.chunk i).sequence = some (r.sequence i) := rfl

theorem flatten_pieces : r.pieces.flatten = r.bytes := r.cut

theorem offset_succ (i : Nat) : r.offset (i + 1) = r.offset i + (r.pieces.getD i []).length := by
  rw [offset, offset, List.take_add_one, List.flatten_append, List.length_append,
    List.getD_eq_getElem?_getD]
  cases r.pieces[i]? <;> simp

theorem offset_le_length (i : Nat) : r.offset i ≤ r.bytes.length := by
  rw [← r.flatten_pieces, offset, ← List.take_append_drop i r.pieces, List.flatten_append,
    List.length_append, List.take_append_drop]
  omega

theorem offset_le_succ (i : Nat) : r.offset i ≤ r.offset (i + 1) := by
  rw [offset_succ]
  exact Nat.le_add_right _ _

theorem offset_lt_succ (hp : ∀ piece ∈ r.pieces, piece ≠ []) {i : Nat} (h : i < r.pieces.length) :
    r.offset i < r.offset (i + 1) := by
  have hne := List.length_pos_iff.mpr (hp r.pieces[i] (List.getElem_mem h))
  rw [offset_succ, List.getD_eq_getElem?_getD, List.getElem?_eq_getElem h, Option.getD_some]
  omega

theorem offset_mono {i j : Nat} (h : i ≤ j) : r.offset i ≤ r.offset j :=
  monotone_nat_of_le_succ r.offset_le_succ h

theorem take_offset (i : Nat) : r.bytes.take (r.offset i) = (r.pieces.take i).flatten := by
  have hb : r.bytes = (r.pieces.take i).flatten ++ (r.pieces.drop i).flatten := by
    rw [← List.flatten_append, List.take_append_drop, flatten_pieces]
  rw [hb, offset, List.take_left]

/-- The data of a chunk is what stands between its ends. -/
theorem data_chunk (i : Nat) :
    (r.chunk i).data = r.between (r.offset i) (r.offset (i + 1)) := by
  rw [between, take_offset, List.take_add_one, List.flatten_append, offset, List.drop_left, chunk,
    List.getD_eq_getElem?_getD]
  cases r.pieces[i]? <;> simp

theorem offset_succ_sub_le (i : Nat) : r.offset (i + 1) - r.offset i ≤ Wire.LogData.capacity := by
  rw [offset_succ, Nat.add_sub_cancel_left, List.getD_eq_getElem?_getD]
  cases hi : r.pieces[i]? with
  | none => exact Nat.zero_le _
  | some piece => exact r.fits piece (List.mem_of_getElem? hi)

theorem sequence_succ (i : Nat) : r.sequence (i + 1) = r.sequence i + 1 := by
  rw [sequence, sequence, UInt16.ofNat_add, UInt16.add_assoc]
  rfl

/-! ### A small recording -/

/-- Three frames behind a file header of one byte. The second is cut. -/
def small : Recording where
  header := [9]
  frames := [⟨79, [7, 0]⟩, ⟨67, [3, 4, 5]⟩, ⟨82, [1, 2]⟩]
  pieces := [[9, 2, 0, 79, 7, 0, 3, 0, 67], [3], [4, 5, 2, 0, 82, 1, 2]]
  first := 65535
  proper := fun f hf => by
    simp only [List.mem_cons, List.not_mem_nil, or_false] at hf
    rcases hf with rfl | rfl | rfl <;> exact ⟨by decide, by decide, by decide⟩
  cut := by decide
  fits := by decide

end Recording

end Log
end FlightLink
