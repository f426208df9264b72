/-
# Payloads survive what is left out and what is added

A sender may leave out zeros at the end of a payload, and may send more than the full length.
Reading looks at the payload brought to its full length and at nothing else, so the message that
was written is read whatever was done at the end (`recovers_of_fit`). The other way round, a
message that was read is written as the payload it was read from, brought to its full length. Log
data alone forgets something: a length byte that promises too much, and the bytes behind the data
(`LogData.tidy`).

Key definitions: `Recovers`, `Faithful`, `LogData.tidy`.
Key theorems: `Faithful.of_full`, `LogData.write_read`, `Inbound.recovers`, `payloads_survive`.
-/
import FlightLink.Proofs.Wire.Payload

namespace FlightLink
namespace Wire

/-! ### Reading what a sender may send -/

/-- The payload is read as `a` whichever of its last zeros are left out, and whatever is added. -/
def Recovers {α : Type} (read : Bytes → α) (full : Bytes) (a : α) : Prop :=
  (∀ payload zeros, full = payload ++ List.replicate zeros 0 → read payload = a) ∧
    ∀ extra, read (full ++ extra) = a

section

variable {α : Type} {length : Nat} {read : Bytes → α} {write : α → Bytes}

/-- If only the payload brought to its full length matters, its end does not. -/
theorem recovers_of_fit (hread : ∀ p, read (p.fit length) = read p) {full : Bytes}
    (hl : full.length = length) : Recovers read full (read full) := by
  constructor
  · intro payload zeros heq
    have hle : payload.length + zeros ≤ length := by simp [← hl, heq]
    calc read payload = read (payload.fit length) := (hread payload).symm
      _ = read ((payload ++ List.replicate zeros 0).fit length) := by
        rw [Bytes.fit_append_zeros hle]
      _ = read full := by rw [← heq, hread]
  · intro extra
    rw [← hread, Bytes.fit_append hl]

/-- Messages whose payload keeps all of them, and they all of it. -/
structure Faithful (length : Nat) (read : Bytes → α) (write : α → Bytes) : Prop where
  length_write : ∀ m, (write m).length = length
  recovers : ∀ m, Recovers read (write m) m
  /-- Any payload, however short or long, is written again as it counts. -/
  write_read : ∀ p, write (read p) = p.fit length
  read_again : ∀ p, read (write (read p)) = read p

/-- It is enough to look at payloads of the full length. -/
theorem Faithful.of_full (hread : ∀ p, read (p.fit length) = read p)
    (hl : ∀ m, (write m).length = length) (hrw : ∀ m, read (write m) = m)
    (hwr : ∀ p, p.length = length → write (read p) = p) : Faithful length read write where
  length_write := hl
  recovers m := by
    have h := recovers_of_fit hread (hl m)
    rwa [hrw] at h
  write_read p := by rw [← hread, hwr _ (Bytes.length_fit length p)]
  read_again p := hrw (read p)

end

/-! ### Messages of fixed fields -/

namespace SystemTime

theorem length_write (m : SystemTime) : m.write.length = length := by simp [write, length]

theorem faithful : Faithful length read write := by
  apply Faithful.of_full
  · intro p
    simp only [read, Bytes.fit_fit]
  · exact length_write
  · intro m
    rw [read, Bytes.fit_of_length m.length_write, write, LittleEndian.toUInt64_ofUInt64,
      List.drop_left' (LittleEndian.length_ofUInt64 _), LittleEndian.toUInt32_ofUInt32_self]
  · intro p hl
    have h12 : p.length = 12 := hl
    have hd : (p.drop 8).length = 4 := by rw [List.length_drop, h12]
    rw [read, Bytes.fit_of_length hl, write, LittleEndian.ofUInt64_toUInt64 (by omega),
      LittleEndian.ofUInt32_toUInt32 (by omega), List.take_of_length_le (Nat.le_of_eq hd),
      List.take_append_drop]

end SystemTime

namespace Timesync

theorem length_write (m : Timesync) : m.write.length = length := by simp [write, length]

theorem faithful : Faithful length read write := by
  apply Faithful.of_full
  · intro p
    simp only [read, Bytes.fit_fit]
  · exact length_write
  · intro m
    rw [read, Bytes.fit_of_length m.length_write, write, LittleEndian.toInt64_ofInt64,
      List.drop_left' (LittleEndian.length_ofInt64 _), LittleEndian.toInt64_ofInt64_self]
  · intro p hl
    have h16 : p.length = 16 := hl
    have hd : (p.drop 8).length = 8 := by rw [List.length_drop, h16]
    rw [read, Bytes.fit_of_length hl, write, LittleEndian.ofInt64_toInt64 (by omega),
      LittleEndian.ofInt64_toInt64 (by omega), List.take_of_length_le (Nat.le_of_eq hd),
      List.take_append_drop]

end Timesync

namespace LogAck

theorem length_write (m : LogAck) : m.write.length = length := by simp [write, length]

theorem write_read_full : ∀ {p : Bytes}, p.length = length → write (read p) = p
  | [low, high, system, component], hl => by
    rw [read, Bytes.fit_of_length hl, write, LittleEndian.ofUInt16_toUInt16 (by simp)]
    rfl

theorem faithful : Faithful length read write := by
  apply Faithful.of_full
  · intro p
    simp only [read, Bytes.fit_fit]
  · exact length_write
  · intro m
    rw [read, Bytes.fit_of_length m.length_write, write, LittleEndian.toUInt16_ofUInt16]
    rfl
  · intro p hl
    exact write_read_full hl

end LogAck

/-! ### Log data -/

namespace LogData

/-- A full payload with its length byte clamped to the room for data, and zeros where it leaves
this room unused. -/
def tidy (bytes : Bytes) : Bytes :=
  bytes.mapIdx fun i b =>
    if i = 4 then min b 249
    else if i < headLength + min (bytes.getD 4 0).toNat capacity then b
    else 0

theorem read_fit (p : Bytes) : read (p.fit length) = read p := read_of_fit (Bytes.fit_fit length p)

/-- Log data is written to a payload of the full length. -/
theorem length_write {m : LogData} {full : Bytes} (h : m.write = .ok full) :
    full.length = length := by
  rw [write_eq (length_data_of_write h)] at h
  cases h
  simp [length, headLength, capacity]

theorem recovers {m : LogData} {full : Bytes} (h : m.write = .ok full) : Recovers read full m := by
  have hm : read full = m := read_write (show m.write = .ok (full ++ List.replicate 0 0) by simpa)
  have hr := recovers_of_fit read_fit (length_write h)
  rwa [hm] at hr

/-- Clearing bytes from a place on is filling up those before it. -/
theorem mapIdx_clear (bytes : Bytes) (n : Nat) :
    (bytes.mapIdx fun i b => if i < n then b else 0) =
      Bytes.fit bytes.length (bytes.take n) := by
  rw [Bytes.fit_of_le (List.length_take_le' n bytes)]
  apply List.ext_getElem
  · simp only [List.length_mapIdx, List.length_append, List.length_take, List.length_replicate]
    omega
  · intro i hi _
    have hi : i < bytes.length := by simpa using hi
    simp only [List.getElem_mapIdx, List.getElem_append, List.length_take, List.getElem_take,
      List.getElem_replicate]
    by_cases hn : i < n
    · rw [if_pos hn, dif_pos (by omega)]
    · rw [if_neg hn, dif_neg (by omega)]

/-- A length byte is clamped by clamping its value. -/
theorem ofNat_min_capacity (size : UInt8) :
    UInt8.ofNat (min size.toNat capacity) = min size 249 := by
  show _ = if size ≤ 249 then size else 249
  by_cases h : size ≤ 249
  · have hle : size.toNat ≤ capacity := UInt8.le_iff_toNat_le.mp h
    rw [if_pos h, Nat.min_eq_left hle, UInt8.ofNat_toNat]
  · have hle : capacity ≤ size.toNat :=
      Nat.le_of_not_le fun hc => h (UInt8.le_iff_toNat_le.mpr hc)
    rw [if_neg h, Nat.min_eq_right hle]
    rfl

/-- What tidying does to the fields of a full payload. -/
theorem tidy_full (low high system component size offset : UInt8) {room : Bytes}
    (h : room.length = capacity) :
    tidy (low :: high :: system :: component :: size :: offset :: room) =
      [low, high, system, component, min size 249, offset]
        ++ Bytes.fit capacity (room.take (min size.toNat capacity)) := by
  have hclear := mapIdx_clear room (min size.toNat capacity)
  rw [h] at hclear
  -- The room starts six bytes behind the start of the payload.
  have hroom (n i : Nat) : i + 1 + 1 + 1 + 1 + 1 + 1 < 6 + n ↔ i < n := by omega
  have hhead (n i : Nat) (hi : i < 6) : ¬ 6 + n ≤ i := by omega
  rw [← hclear]
  simp [tidy, List.mapIdx_cons, headLength, hroom, hhead]

/-- **Log data is written as the payload it was read from**, brought to its full length and
tidied. -/
theorem write_read (p : Bytes) : (read p).write = .ok (tidy (p.fit length)) := by
  rw [← read_fit p]
  have hl : (p.fit length).length = length := Bytes.length_fit length p
  match p.fit length, hl with
  | low :: high :: system :: component :: size :: offset :: room, hl =>
    have hroom : room.length = capacity := by
      simp only [List.length_cons, length, headLength] at hl
      omega
    have hs : LittleEndian.ofUInt16 (LittleEndian.toUInt16 [low, high]) = [low, high] :=
      LittleEndian.ofUInt16_toUInt16 (by simp)
    have hread :=
      read_full (LittleEndian.toUInt16 [low, high]) ⟨system, component⟩ size offset hroom
    rw [hs] at hread
    have hdata : (room.take (min size.toNat capacity)).length = min size.toNat capacity := by
      rw [List.length_take, hroom]
      omega
    simp only [List.cons_append, List.nil_append] at hread
    rw [hread, write_eq (by rw [hdata]; exact Nat.min_le_right _ _), tidy_full _ _ _ _ _ _ hroom]
    simp only [hs, hdata, ofNat_min_capacity, List.cons_append, List.nil_append]

end LogData

/-! ### Messages found by their number -/

namespace Inbound

/-- The full payload of a message. -/
def write : Inbound → Except Oversize Bytes
  | systemTime m => .ok m.write
  | timesync m => .ok m.write
  | logData m => m.write
  | logDataAcked m => m.write

/-- What is read as a message is read under its number too. -/
theorem recovers_of_read {α : Type} {read : Bytes → α} {full : Bytes} {a : α} {id : MessageId}
    {wrap : α → Inbound} (hread : ∀ p, Inbound.read id p = .ok (wrap (read p)))
    (h : Recovers read full a) : Recovers (Inbound.read id) full (.ok (wrap a)) := by
  constructor
  · intro payload zeros heq
    rw [hread, h.1 payload zeros heq]
  · intro extra
    rw [hread, h.2 extra]

/-- A message is read back under its own number. -/
theorem recovers {m : Inbound} {full : Bytes} (h : m.write = .ok full) :
    Recovers (read m.id) full (.ok m) := by
  cases m with
  | systemTime m =>
    cases h
    exact recovers_of_read (fun _ => rfl) (SystemTime.faithful.recovers m)
  | timesync m =>
    cases h
    exact recovers_of_read (fun _ => rfl) (Timesync.faithful.recovers m)
  | logData m => exact recovers_of_read (fun _ => rfl) (LogData.recovers h)
  | logDataAcked m => exact recovers_of_read (fun _ => rfl) (LogData.recovers h)

end Inbound

/-- **Payloads survive what is left out and what is added at their end.** The message is read
back, also under its number; what was read from any payload, of any length, is written as this
payload brought to its full length, log data as this payload tidied, and is read again from
there. -/
theorem payloads_survive :
    Faithful SystemTime.length SystemTime.read SystemTime.write ∧
      Faithful Timesync.length Timesync.read Timesync.write ∧
      Faithful LogAck.length LogAck.read LogAck.write ∧
      (∀ m : LogData, m.data.length ≤ LogData.capacity →
        ∃ full, m.write = .ok full ∧ full.length = LogData.length ∧
          Recovers LogData.read full m) ∧
      (∀ p, (LogData.read p).write = .ok (LogData.tidy (p.fit LogData.length)) ∧
        LogData.read (LogData.tidy (p.fit LogData.length)) = LogData.read p) ∧
      (∀ (m : Inbound) (full : Bytes), m.write = .ok full →
        Recovers (Inbound.read m.id) full (.ok m)) ∧
      (∀ id ∈ [SystemTime.id, Timesync.id, LogData.id, LogData.ackedId], ∀ p,
        ∃ m, Inbound.read id p = .ok m) := by
  refine ⟨SystemTime.faithful, Timesync.faithful, LogAck.faithful, ?_, ?_, ?_, ?_⟩
  · intro m hfits
    have hw := LogData.write_eq hfits
    exact ⟨_, hw, LogData.length_write hw, LogData.recovers hw⟩
  · intro p
    refine ⟨LogData.write_read p, ?_⟩
    exact (LogData.recovers (LogData.write_read p)).1 _ 0 (List.append_nil _).symm
  · exact fun m full h => Inbound.recovers h
  · simp only [List.forall_mem_cons]
    exact ⟨fun p => ⟨_, rfl⟩, fun p => ⟨_, rfl⟩, fun p => ⟨_, rfl⟩, fun p => ⟨_, rfl⟩, by simp⟩

end Wire
end FlightLink
