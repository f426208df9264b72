/-
# Writing again what was read

Different payloads are read as the same message: bytes behind the last field are not looked at,
any mark but zero continues a value, and any byte that is no digit up to `7` stands for no level.
What is written of the message is one of them, the canonical one, and no longer than the others;
it is read as the message again (`Message.rewrites`). It is the payload that was read exactly if
nothing about that one is forgotten (`Message.Canonical`).

Key definitions: `Message.Canonical`.
Key theorems: `Level.toByte_ofByte_eq_iff`, `Message.Layout.exists_payload`, `Message.rewrites`.
-/
import FlightLink.Proofs.Log.Reading
import FlightLink.Proofs.Log.Writing

namespace FlightLink
namespace Log

/-- A digit up to `7` stands for a level. -/
theorem Level.ofByte_ne_undefined {b : UInt8} (hlow : 0x30 ≤ b) (hhigh : b ≤ 0x37) :
    ofByte b ≠ undefined := by
  simp only [UInt8.le_iff_toNat_le, UInt8.reduceToNat] at hlow hhigh
  simp only [ofByte, ← UInt8.toNat_inj, UInt8.reduceToNat]
  split_ifs <;> first | decide | omega

/-- A byte is the one of its level exactly if it is zero or a digit up to `7`. -/
theorem Level.toByte_ofByte_eq_iff {b : UInt8} :
    (ofByte b).toByte = b ↔ b = 0 ∨ 0x30 ≤ b ∧ b ≤ 0x37 := by
  constructor
  · intro h
    rw [← h]
    cases ofByte b <;> decide
  · rintro (rfl | ⟨hlow, hhigh⟩)
    · rfl
    · exact toByte_ofByte (ofByte_ne_undefined hlow hhigh)

namespace Message

/-- Nothing about the payload is forgotten when it is read as this kind. -/
def Canonical : Kind → Bytes → Prop
  | .flagBits, payload => payload.length = 40
  | .infoMultiple, payload => payload.head? = some 0 ∨ payload.head? = some 1
  | .removeLogged, payload => payload.length = 2
  | .logging, payload =>
    ∃ level, payload.head? = some level ∧ (level = 0 ∨ 0x30 ≤ level ∧ level ≤ 0x37)
  | .dropout, payload => payload.length = 2
  | .sync, payload => payload.length = 8
  | _, _ => True

theorem eq_append_iff {front : Bytes} {n : Nat} (h : front.length = n) (unread : Bytes) :
    front = front ++ unread ↔ (front ++ unread).length = n := by
  rw [List.self_eq_append_right, List.length_append, h, ← List.length_eq_zero_iff]
  omega

theorem writeKey_layout {size : UInt8} {key : String} (h : size.toNat = (Utf8.encode key).length) :
    writeKey key = .ok (size :: Utf8.encode key) := by
  rw [writeKey_of_le (by rw [← h]; exact Nat.le_of_lt_succ size.toNat_lt), ← h, UInt8.ofNat_toNat]

/-- **What is written of a message that a payload lays out.** -/
theorem Layout.exists_payload {payload : Bytes} {m : Message} (h : Layout payload m) :
    ∃ again, m.payload = .ok again ∧ again.length ≤ payload.length ∧
      (again = payload ↔ Canonical m.kind payload) := by
  cases h with
  | @flagBits flags first second third unread h1 h2 h3 =>
    have hpayload : (Message.flagBits flags).payload =
        .ok (flags.compatible.toList ++ (flags.incompatible.toList ++
          (first ++ (second ++ third)))) := by
      rw [← flatMap_words h1 h2 h3, ← List.append_assoc]
      rfl
    have hl : (flags.compatible.toList ++ (flags.incompatible.toList ++
        (first ++ (second ++ third)))).length = 40 := by
      simp only [List.length_append, Vector.length_toList, h1.1, h2.1, h3.1]
    have hprefix := eq_append_iff hl unread
    simp only [List.append_assoc] at hprefix
    refine ⟨_, hpayload, ?_, hprefix⟩
    simp only [List.length_append]
    omega
  | format definition => exact ⟨_, rfl, Nat.le_refl _, iff_of_true rfl trivial⟩
  | info key value hsize | parameter key value hsize =>
    refine ⟨_, ?_, Nat.le_refl _, iff_of_true rfl trivial⟩
    simp only [Message.payload, writeKey_layout hsize]
    rfl
  | @infoMultiple mark size key value hsize =>
    refine ⟨(if mark = 0 then 0 else 1) :: size :: (Utf8.encode key ++ value), ?_, Nat.le_refl _,
      ?_⟩
    · simp only [Message.payload, writeKey_layout hsize]
      by_cases hmark : mark = 0
      · simp [hmark]
      · simp [hmark]
    · by_cases hmark : mark = 0
      · simp [Canonical, kind, hmark]
      · simp [Canonical, kind, hmark, eq_comm]
  | addLogged multiId messageId name hid =>
    obtain rfl := hid.eq_ofUInt16
    exact ⟨_, rfl, Nat.le_refl _, iff_of_true rfl trivial⟩
  | removeLogged n unread hword | dropout n unread hword =>
    obtain rfl := hword.eq_ofUInt16
    refine ⟨_, rfl, ?_, ?_⟩
    · rw [List.length_append]
      exact Nat.le_add_right _ _
    · exact eq_append_iff hword.1 unread
  | data messageId content hid =>
    obtain rfl := hid.eq_ofUInt16
    exact ⟨_, rfl, Nat.le_refl _, iff_of_true rfl trivial⟩
  | logging level timestamp text htime =>
    obtain rfl := htime.eq_ofUInt64
    refine ⟨_, rfl, Nat.le_refl _, ?_⟩
    simp [Canonical, kind, Level.toByte_ofByte_eq_iff]
  | sync unread =>
    refine ⟨_, rfl, ?_, ?_⟩
    · rw [List.length_append]
      exact Nat.le_add_right _ _
    · exact eq_append_iff rfl unread

/-- **What was read is written again, as the canonical payload of its message.** A message read
from a payload of at most 65535 bytes is of the kind that it was read as. It is written without
fail, its own payload is no longer than the one it was read from and is read as the message again,
and it is that one exactly if that one is canonical. -/
theorem rewrites {kind : Kind} {payload : Bytes} {m : Message} (hlength : payload.length ≤ 65535)
    (hread : read kind payload = .ok m) :
    m.kind = kind ∧ ∃ again, m.payload = .ok again ∧
      m.write = .ok (LittleEndian.encode 2 again.length ++ kind.tag :: again) ∧
      again.length ≤ payload.length ∧ read kind again = .ok m ∧
      (again = payload ↔ Canonical kind payload) := by
  obtain ⟨rfl, hlayout⟩ := read_eq_ok_iff.mp hread
  obtain ⟨again, hagain, hle, hcanonical⟩ := hlayout.exists_payload
  have hwrite := write_of_payload hagain
  rw [if_pos (Nat.le_trans hle hlength)] at hwrite
  exact ⟨rfl, again, hagain, hwrite, hle, read_payload hagain, hcanonical⟩

/-- The mark `7` continues a value as `1` does, and `1` is written. -/
theorem rewrites_mark :
    let m := Message.infoMultiple true "a" [9]
    ([7, 1, 0x61, 9] : Bytes).length ≤ 65535 ∧ read .infoMultiple [7, 1, 0x61, 9] = .ok m ∧
      m.payload = .ok [1, 1, 0x61, 9] ∧ read .infoMultiple [1, 1, 0x61, 9] = .ok m ∧
      ¬ Canonical .infoMultiple [7, 1, 0x61, 9] := by
  intro m
  have hlength : ([7, 1, 0x61, 9] : Bytes).length ≤ 65535 := by decide
  have hread : read .infoMultiple [7, 1, 0x61, 9] = .ok m := by rfl
  have hpayload : m.payload = .ok [1, 1, 0x61, 9] := by rfl
  obtain ⟨-, again, hagain, -, -, hreadAgain, hcanonical⟩ := rewrites hlength hread
  rw [hpayload] at hagain
  cases hagain
  refine ⟨hlength, hread, hpayload, hreadAgain, ?_⟩
  rw [← hcanonical]
  decide

end Message

end Log
end FlightLink
