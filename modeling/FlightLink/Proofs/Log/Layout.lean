/-
# Frames in a row

Frames that follow one another in a byte stream stand at places that their sizes fix:
with the first at `base`, frame number `k` begins at `start base frames k`. How many
frames begin before a place (`begun`) and how many end by it (`ended`) are found by
walking along them, and the frames that lie wholly between two places are the numbers
from the one count to the other (`within_eq`).

Key definitions: `Frame.Proper`, `Frame.join`, `Layout.start`, `Layout.begun`,
`Layout.ended`, `Layout.within`.
Key theorems: `Layout.start_ended_le`, `Layout.lt_start_ended`, `Layout.ended_eq`,
`Layout.begun_eq`, `Layout.within_eq`, `Layout.find_start`.
-/
import FlightLink.Log.Frame

namespace FlightLink
namespace Log

namespace Frame

/-- A frame that a logger can send: its tag is an uppercase letter, and its length field
can hold the length of its payload. -/
structure Proper (f : Frame) : Prop where
  le_tag : 0x41 ≤ f.tag
  tag_le : f.tag ≤ 0x5a
  payload_le : f.payload.length ≤ 65535

/-- Bytes that a frame takes. -/
def size (f : Frame) : Nat := Header.length + f.payload.length

/-- Frames one after the other. -/
def join (fs : List Frame) : Bytes := fs.flatMap toBytes

theorem length_write (h : Header) : h.write.length = Header.length := by
  simp [Header.write, LittleEndian.ofUInt16, Header.length]

@[simp] theorem length_toBytes (f : Frame) : f.toBytes.length = f.size := by
  rw [toBytes, List.length_append, length_write, size]

theorem size_pos (f : Frame) : 0 < f.size := by
  rw [size, Header.length]
  omega

@[simp] theorem join_nil : join [] = [] := rfl

@[simp] theorem join_cons (f : Frame) (fs : List Frame) : join (f :: fs) = f.toBytes ++ join fs := rfl

theorem join_append (fs gs : List Frame) : join (fs ++ gs) = join fs ++ join gs :=
  List.flatMap_append

theorem Proper.credible {f : Frame} (h : f.Proper) : f.header.credible = true :=
  Header.credible_iff.mpr ⟨h.le_tag, h.tag_le⟩

theorem Proper.length_payload {f : Frame} (h : f.Proper) :
    f.payload.length = f.header.size.toNat :=
  (UInt16.toNat_ofNat_of_lt (Nat.lt_succ_of_le h.payload_le)).symm

/-- The bytes of a frame tell the frame. -/
theorem Proper.eq_of_toBytes {f g : Frame} (hf : f.Proper) (hg : g.Proper)
    (h : f.toBytes = g.toBytes) : f = g := by
  have hr : Header.read? f.toBytes = Header.read? g.toBytes := by rw [h]
  rw [toBytes, toBytes, Header.read_write, Header.read_write] at hr
  cases f
  cases g
  simp_all [header]

end Frame

namespace Layout

open Log.Frame

/-- Where frame number `k` begins when the first begins at `base`; behind the last frame
it is where that one ends. -/
def start (base : Nat) : List Frame → Nat → Nat
  | _, 0 => base
  | [], _ + 1 => base
  | f :: fs, k + 1 => start (base + f.size) fs k

/-- How many frames begin before `place`. -/
def begun (base : Nat) : List Frame → Nat → Nat
  | [], _ => 0
  | f :: fs, place => if base < place then begun (base + f.size) fs place + 1 else 0

/-- How many frames end by `place`. -/
def ended (base : Nat) : List Frame → Nat → Nat
  | [], _ => 0
  | f :: fs, place =>
    if base + f.size ≤ place then ended (base + f.size) fs place + 1 else 0

/-- Every frame with the place where it begins. -/
def placed (base : Nat) : List Frame → List (Nat × Frame)
  | [] => []
  | f :: fs => (base, f) :: placed (base + f.size) fs

/-- The frames that lie wholly between two places. -/
def within (base : Nat) (frames : List Frame) (low high : Nat) : List Frame :=
  ((placed base frames).filter fun x => low ≤ x.1 ∧ x.1 + x.2.size ≤ high).map Prod.snd

/-- One part of a list and the next one. -/
theorem slice_append {α : Type} {l : List α} {a b c : Nat} (hab : a ≤ b) (hbc : b ≤ c)
    (hb : b ≤ l.length) : (l.take b).drop a ++ (l.take c).drop b = (l.take c).drop a := by
  have ht := List.take_append_drop b (l.take c)
  rw [List.take_take, Nat.min_eq_left hbc] at ht
  have hl : a ≤ (l.take b).length := by rw [List.length_take, Nat.min_eq_left hb]; exact hab
  have hd := congrArg (List.drop a) ht
  rwa [List.drop_append_of_le_length hl] at hd

/-! ### Where frames begin -/

@[simp] theorem start_zero (base : Nat) (fs : List Frame) : start base fs 0 = base := by
  cases fs <;> rfl

theorem start_eq : ∀ (base : Nat) (fs : List Frame) (k : Nat),
    start base fs k = base + (join (fs.take k)).length
  | _, _, 0 => by simp
  | _, [], _ + 1 => by simp [start]
  | base, f :: fs, k + 1 => by
    rw [start, start_eq (base + f.size) fs k, List.take_succ_cons, join_cons, List.length_append,
      length_toBytes, Nat.add_assoc]

theorem start_length (base : Nat) (fs : List Frame) :
    start base fs fs.length = base + (join fs).length := by
  rw [start_eq, List.take_length]

theorem start_succ : ∀ (base : Nat) {fs : List Frame} {k : Nat} (h : k < fs.length),
    start base fs (k + 1) = start base fs k + fs[k].size
  | _, _ :: _, 0, _ => by simp [start]
  | base, f :: fs, k + 1, h => by
    have hk : k < fs.length := Nat.lt_of_succ_lt_succ h
    rw [start, start_succ (base + f.size) hk, start]
    rfl

theorem base_le_start (base : Nat) (fs : List Frame) (k : Nat) : base ≤ start base fs k := by
  rw [start_eq]
  omega

theorem start_mono (base : Nat) (fs : List Frame) {j k : Nat} (h : j ≤ k) :
    start base fs j ≤ start base fs k := by
  have hp := List.take_append_drop j (fs.take k)
  rw [List.take_take, Nat.min_eq_left h] at hp
  rw [start_eq, start_eq, ← hp, join_append, List.length_append]
  omega

theorem start_lt (base : Nat) {fs : List Frame} {j k : Nat} (h : j < k) (hk : k ≤ fs.length) :
    start base fs j < start base fs k := by
  have hj : j < fs.length := by omega
  have hs := start_succ base hj
  have hp := fs[j].size_pos
  have hm := start_mono base fs (show j + 1 ≤ k from h)
  omega

/-! ### Frames with their places -/

theorem map_snd_placed : ∀ (base : Nat) (fs : List Frame), (placed base fs).map Prod.snd = fs
  | _, [] => rfl
  | base, f :: fs => congrArg (f :: ·) (map_snd_placed (base + f.size) fs)

theorem getElem?_placed : ∀ (base : Nat) (fs : List Frame) (k : Nat),
    (placed base fs)[k]? = fs[k]?.map (start base fs k, ·)
  | _, [], _ => rfl
  | _, _ :: _, 0 => rfl
  | base, f :: fs, k + 1 => getElem?_placed (base + f.size) fs k

/-! ### Counting -/

theorem ended_le_length : ∀ (base : Nat) (fs : List Frame) (place : Nat),
    ended base fs place ≤ fs.length
  | _, [], _ => Nat.le_refl 0
  | base, f :: fs, place => by
    have ih := ended_le_length (base + f.size) fs place
    rw [ended, List.length_cons]
    split <;> omega

theorem begun_le_length : ∀ (base : Nat) (fs : List Frame) (place : Nat),
    begun base fs place ≤ fs.length
  | _, [], _ => Nat.le_refl 0
  | base, f :: fs, place => by
    have ih := begun_le_length (base + f.size) fs place
    rw [begun, List.length_cons]
    split <;> omega

/-- What has ended by a place lies before it. -/
theorem start_ended_le : ∀ {base : Nat} (fs : List Frame) {place : Nat}, base ≤ place →
    start base fs (ended base fs place) ≤ place
  | _, [], _, h => by simpa [ended] using h
  | _, f :: fs, _, h => by
    rw [ended]
    split
    · rename_i he
      exact start_ended_le fs he
    · simpa using h

/-- The next frame has not ended. -/
theorem lt_start_ended : ∀ (base : Nat) (fs : List Frame) (place : Nat),
    ended base fs place < fs.length → place < start base fs (ended base fs place + 1)
  | base, f :: fs, place, h => by
    rw [ended] at h ⊢
    split
    · rename_i he
      rw [if_pos he, List.length_cons] at h
      exact lt_start_ended (base + f.size) fs place (Nat.lt_of_succ_lt_succ h)
    · rename_i he
      simpa [start] using he

/-- The last frame that has begun lies before the place. -/
theorem start_begun_lt : ∀ (base : Nat) {fs : List Frame} {place k : Nat},
    k < begun base fs place → start base fs k < place
  | base, f :: fs, place, k, h => by
    rw [begun] at h
    split at h
    · rename_i hb
      cases k with
      | zero => simpa using hb
      | succ k => exact start_begun_lt (base + f.size) (Nat.lt_of_succ_lt_succ h)
    · omega

/-- The next frame begins at the place or behind it. -/
theorem le_start_begun : ∀ (base : Nat) (fs : List Frame) (place : Nat),
    begun base fs place < fs.length → place ≤ start base fs (begun base fs place)
  | base, f :: fs, place, h => by
    rw [begun] at h ⊢
    split
    · rename_i hb
      rw [if_pos hb, List.length_cons] at h
      exact le_start_begun (base + f.size) fs place (Nat.lt_of_succ_lt_succ h)
    · rename_i hb
      simpa using hb

/-- A number of frames that have ended, with none ended behind them, is all that have. -/
theorem ended_eq {base : Nat} {fs : List Frame} {place k : Nat} (hk : k ≤ fs.length)
    (hle : start base fs k ≤ place) (hlt : k < fs.length → place < start base fs (k + 1)) :
    ended base fs place = k := by
  have hb : base ≤ place := Nat.le_trans (base_le_start base fs k) hle
  have h1 := start_ended_le fs hb
  rcases Nat.lt_trichotomy (ended base fs place) k with h | h | h
  · have h2 := lt_start_ended base fs place (by omega)
    have h3 := start_mono base fs (show ended base fs place + 1 ≤ k from h)
    omega
  · exact h
  · have hl := ended_le_length base fs place
    have h2 := hlt (by omega)
    have h3 := start_mono base fs (show k + 1 ≤ ended base fs place from h)
    omega

/-- A number of frames that have begun, with none begun behind them, is all that have. -/
theorem begun_eq {base : Nat} {fs : List Frame} {place k : Nat} (hk : k ≤ fs.length)
    (hlt : ∀ j, j < k → start base fs j < place) (hle : k < fs.length → place ≤ start base fs k) :
    begun base fs place = k := by
  rcases Nat.lt_trichotomy (begun base fs place) k with h | h | h
  · have h1 := le_start_begun base fs place (by omega)
    have h2 := hlt _ h
    omega
  · exact h
  · have hl := begun_le_length base fs place
    have h1 := start_begun_lt base h
    have h2 := hle (by omega)
    omega

theorem ended_mono {base : Nat} {fs : List Frame} {p q : Nat} (hb : base ≤ p) (h : p ≤ q) :
    ended base fs p ≤ ended base fs q := by
  refine Nat.le_of_not_lt fun hn => ?_
  have hl := ended_le_length base fs p
  have h1 := start_ended_le fs hb
  have h2 := lt_start_ended base fs q (by omega)
  have h3 := start_mono base fs (show ended base fs q + 1 ≤ ended base fs p from hn)
  omega

/-- Before the first frame nothing has ended. -/
theorem ended_of_le {base : Nat} (fs : List Frame) {place : Nat} (h : place ≤ base) :
    ended base fs place = 0 := by
  cases fs with
  | nil => rfl
  | cons f fs =>
    have hp := f.size_pos
    rw [ended, if_neg (by omega)]

/-! ### Frames between two places -/

/-- From a place on where all frames begin no frame is left out on the left. -/
theorem within_of_le : ∀ {base low : Nat} (fs : List Frame) (high : Nat), low ≤ base →
    within base fs low high = fs.take (ended base fs high)
  | _, _, [], _, _ => rfl
  | base, low, f :: fs, high, h => by
    have ih := within_of_le fs high (Nat.le_trans h (Nat.le_add_right base f.size))
    rw [within, placed, ended]
    by_cases he : base + f.size ≤ high
    · rw [List.filter_cons_of_pos (by simpa using ⟨h, he⟩), List.map_cons, if_pos he,
        List.take_succ_cons]
      exact congrArg (f :: ·) ih
    · rw [within] at ih
      rw [List.filter_cons_of_neg (by simp [he]), ih, if_neg he, ended_of_le fs (by omega)]
      rfl

/-- **The frames between two places are those numbered from the frames begun before the
first to the frames ended by the second.** -/
theorem within_eq : ∀ (base : Nat) (fs : List Frame) (low high : Nat),
    within base fs low high = (fs.take (ended base fs high)).drop (begun base fs low)
  | _, [], _, _ => rfl
  | base, f :: fs, low, high => by
    by_cases hb : base < low
    · have ih := within_eq (base + f.size) fs low high
      rw [within] at ih
      rw [within, placed, List.filter_cons_of_neg (by simp; omega), ih, begun, if_pos hb, ended]
      by_cases he : base + f.size ≤ high
      · rw [if_pos he, List.take_succ_cons, List.drop_succ_cons]
      · rw [if_neg he, List.take_zero, List.drop_nil, ended_of_le fs (by omega), List.take_zero,
          List.drop_nil]
    · rw [within_of_le (f :: fs) high (Nat.le_of_not_lt hb), begun, if_neg hb, List.drop_zero]

/-- The first frame that begins from one place on and before another. -/
theorem find_start : ∀ (base : Nat) (fs : List Frame) (low high : Nat),
    ((placed base fs).map Prod.fst).find? (fun x => low ≤ x ∧ x < high) =
      if begun base fs low < fs.length ∧ start base fs (begun base fs low) < high then
        some (start base fs (begun base fs low))
      else none
  | _, [], _, _ => rfl
  | base, f :: fs, low, high => by
    by_cases hb : base < low
    · have ih := find_start (base + f.size) fs low high
      rw [placed, List.map_cons, List.find?_cons_of_neg (by simp; omega), ih, begun, if_pos hb,
        List.length_cons, start]
      simp only [Nat.succ_lt_succ_iff]
    · rw [begun, if_neg hb, start_zero, placed, List.map_cons]
      by_cases hh : base < high
      · rw [List.find?_cons_of_pos (by simpa using ⟨Nat.le_of_not_lt hb, hh⟩),
          if_pos ⟨Nat.succ_pos _, hh⟩]
      · have ih := find_start (base + f.size) fs low high
        have hs := base_le_start (base + f.size) fs (begun (base + f.size) fs low)
        rw [List.find?_cons_of_neg (by simp [hh]), ih, if_neg (by omega), if_neg (by omega)]

end Layout

end Log
end FlightLink
