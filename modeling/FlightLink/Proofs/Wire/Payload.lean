/-
# Payloads with their trailing zeros left out

A sender may leave out any number of zeros at the end of a payload. Reading makes them up,
so what is read is what was written.

Key theorems: `LogData.read_write`.
-/
import FlightLink.Wire.Traffic

namespace FlightLink
namespace Wire

namespace LogData

/-- Only what a payload is made up to matters. -/
theorem read_of_fit {p q : Bytes} (h : p.fit length = q.fit length) : read p = read q := by
  unfold read
  rw [h]

theorem write_eq {m : LogData} (h : m.data.length ≤ capacity) :
    m.write = .ok (LittleEndian.ofUInt16 m.sequence
      ++ [m.target.systemId, m.target.componentId, UInt8.ofNat m.data.length,
        m.firstMessageOffset] ++ m.data.fit capacity) := by
  unfold write
  exact if_pos h

/-- Only data that fits is written. -/
theorem length_data_of_write {m : LogData} {full : Bytes} (h : m.write = .ok full) :
    m.data.length ≤ capacity := by
  refine Nat.le_of_not_lt fun hlt => ?_
  rw [write, if_neg (Nat.not_le_of_lt hlt)] at h
  cases h

/-- A payload of the full length is read field by field. -/
theorem read_full (sequence : UInt16) (target : Identity) (size offset : UInt8) {room : Bytes}
    (h : room.length = capacity) :
    read (LittleEndian.ofUInt16 sequence ++ [target.systemId, target.componentId, size, offset]
      ++ room) = ⟨sequence, target, offset, room.take (min size.toNat capacity)⟩ := by
  have hl : (LittleEndian.ofUInt16 sequence
      ++ [target.systemId, target.componentId, size, offset] ++ room).length = length := by
    simp only [List.length_append, LittleEndian.ofUInt16, LittleEndian.length_encode, h,
      List.length_cons, List.length_nil]
    rfl
  unfold read
  rw [Bytes.fit_of_length hl]
  simp only [List.append_assoc, LittleEndian.toUInt16_ofUInt16]
  rfl

/-- **Log data that fits is read back, whatever zeros were left out behind it.** -/
theorem read_write {m : LogData} {payload : Bytes} {zeros : Nat}
    (h : m.write = .ok (payload ++ List.replicate zeros 0)) : read payload = m := by
  have hc := length_data_of_write h
  rw [write_eq hc] at h
  injection h with h
  have hl := congrArg List.length h
  simp only [List.length_append, LittleEndian.ofUInt16, LittleEndian.length_encode,
    Bytes.length_fit, List.length_replicate, List.length_cons, List.length_nil] at hl
  have hroom : (m.data.fit capacity).take (min (UInt8.ofNat m.data.length).toNat capacity) =
      m.data := by
    have hsize : (UInt8.ofNat m.data.length).toNat = m.data.length :=
      UInt8.toNat_ofNat_of_lt (Nat.lt_of_le_of_lt hc (by decide))
    rw [hsize, Nat.min_eq_left hc, Bytes.fit, List.take_take, Nat.min_eq_left hc, List.rightpad,
      List.take_left]
  have hfit : (payload ++ List.replicate zeros 0).fit length = payload.fit length :=
    Bytes.fit_append_zeros (by unfold length headLength; omega)
  calc read payload = read (payload ++ List.replicate zeros 0) := read_of_fit hfit.symm
    _ = m := by rw [← h, read_full _ _ _ _ (Bytes.length_fit _ _), hroom]

end LogData

end Wire
end FlightLink
