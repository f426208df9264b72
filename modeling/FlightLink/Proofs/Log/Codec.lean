/-
# Reading a message undoes writing it

The payload of a message is read back as the message (`Message.read_payload`), so a frame
that was written from a message stands for that message (`Message.read_frame`). Each field
reader is shown to undo its writer in front of whatever follows the field.

Key theorems: `Message.readKeyed_writeKey`, `Message.readFlags_payload`,
`Message.read_payload`, `Message.read_frame`.
-/
import FlightLink.Log.Codec
import FlightLink.Proofs.Log.Layout

namespace FlightLink
namespace Log

namespace Message

/-! ### Fields -/

/-- What succeeds in two steps succeeds in the first. -/
theorem bind_ok {ε α β : Type} {x : Except ε α} {f : α → Except ε β} {b : β}
    (h : (x >>= f) = .ok b) : ∃ a, x = .ok a ∧ f a = .ok b := by
  cases x with
  | error e => cases h
  | ok a => exact ⟨a, rfl, h⟩

theorem need_of_le {minimum : Nat} {bytes : Bytes} (h : minimum ≤ bytes.length) :
    need minimum bytes = .ok () := by
  unfold need
  exact if_neg (Nat.not_lt_of_le h)

theorem readText_encode (text : String) : readText (Utf8.encode text) = .ok text := by
  unfold readText
  rw [Utf8.decode_encode]
  rfl

theorem writeKey_eq {key : String} {head : Bytes} (h : writeKey key = .ok head) :
    (Utf8.encode key).length ≤ 255 ∧
      head = UInt8.ofNat (Utf8.encode key).length :: Utf8.encode key := by
  unfold writeKey at h
  dsimp only at h
  split at h
  · rename_i hle
    cases h
    exact ⟨hle, rfl⟩
  · cases h

theorem readKeyed_eq {bytes : Bytes} {key : String} {size : Nat}
    (hs : (bytes.getD 0 0).toNat = size) (hl : 1 + size ≤ bytes.length)
    (hk : (bytes.drop 1).take size = Utf8.encode key) :
    readKeyed bytes = .ok (key, bytes.drop (1 + size)) := by
  unfold readKeyed
  rw [need_of_le (Nat.le_trans (Nat.le_add_right 1 size) hl)]
  simp only [hs, need_of_le hl, hk, readText_encode]
  rfl

/-- A key is read back, and what follows it is left. -/
theorem readKeyed_writeKey {key : String} {head : Bytes} (h : writeKey key = .ok head)
    (value : Bytes) : readKeyed (head ++ value) = .ok (key, value) := by
  obtain ⟨hle, rfl⟩ := writeKey_eq h
  have hs : (UInt8.ofNat (Utf8.encode key).length).toNat = (Utf8.encode key).length :=
    UInt8.toNat_ofNat_of_lt (Nat.lt_succ_of_le hle)
  have hl : 1 + (Utf8.encode key).length ≤
      (UInt8.ofNat (Utf8.encode key).length :: (Utf8.encode key ++ value)).length := by
    rw [List.length_cons, List.length_append]
    omega
  have hr : readKeyed (UInt8.ofNat (Utf8.encode key).length :: (Utf8.encode key ++ value)) = _ :=
    readKeyed_eq hs hl List.take_left
  rw [List.cons_append, hr, Nat.add_comm, List.drop_succ_cons, List.drop_left]

theorem length_flatMap_ofUInt64 (words : List UInt64) :
    (words.flatMap LittleEndian.ofUInt64).length = 8 * words.length := by
  induction words with
  | nil => rfl
  | cons word words ih =>
    have hl : (LittleEndian.ofUInt64 word).length = 8 := LittleEndian.length_encode 8 _
    rw [List.flatMap_cons, List.length_append, hl, ih, List.length_cons]
    omega

/-- Words behind each other are read one by one. -/
theorem toUInt64_drop : ∀ (words : List UInt64) (i : Nat) (h : i < words.length),
    LittleEndian.toUInt64 ((words.flatMap LittleEndian.ofUInt64).drop (8 * i)) = words[i]
  | word :: words, 0, _ => LittleEndian.toUInt64_ofUInt64 word _
  | word :: words, i + 1, h => by
    have hl : (LittleEndian.ofUInt64 word).length = 8 := LittleEndian.length_encode 8 _
    rw [List.flatMap_cons, Nat.mul_succ, Nat.add_comm, ← List.drop_drop, List.drop_left' hl,
      toUInt64_drop words i (Nat.lt_of_succ_lt_succ h)]
    rfl

/-- The flags are read back field by field. -/
theorem readFlags_payload (flags : FlagBits) :
    readFlags (flags.compatible.toList ++ flags.incompatible.toList
      ++ flags.appendedOffsets.toList.flatMap LittleEndian.ofUInt64) = flags := by
  obtain ⟨compatible, incompatible, offsets⟩ := flags
  have hc : compatible.toList.length = 8 := compatible.length_toList
  have hi : incompatible.toList.length = 8 := incompatible.length_toList
  have ho : offsets.toList.length = 3 := offsets.length_toList
  simp only [readFlags, FlagBits.mk.injEq]
  refine ⟨?_, ?_, ?_⟩
  · ext i hlt
    rw [Vector.getElem_ofFn, List.append_assoc, List.getD_eq_getElem?_getD,
      List.getElem?_append_left (by omega), List.getElem?_eq_getElem (by omega)]
    simp
  · ext i hlt
    rw [Vector.getElem_ofFn, List.append_assoc, List.getD_eq_getElem?_getD,
      List.getElem?_append_right (by omega), List.getElem?_append_left (by omega),
      List.getElem?_eq_getElem (by omega)]
    simp [hc]
  · ext i hlt
    have hd : (compatible.toList ++ incompatible.toList
        ++ offsets.toList.flatMap LittleEndian.ofUInt64).drop (16 + 8 * i) =
        (offsets.toList.flatMap LittleEndian.ofUInt64).drop (8 * i) := by
      rw [← List.drop_drop, List.drop_left' (by rw [List.length_append, hc, hi])]
    rw [Vector.getElem_ofFn, hd, toUInt64_drop _ _ (by omega)]
    simp

/-! ### Messages -/

/-- **A payload is read back as the message it was written from.** -/
theorem read_payload {m : Message} {bytes : Bytes} (h : m.payload = .ok bytes) :
    read m.kind bytes = .ok m := by
  cases m with
  | flagBits flags =>
    cases h
    have hl : (flags.compatible.toList ++ flags.incompatible.toList
        ++ flags.appendedOffsets.toList.flatMap LittleEndian.ofUInt64).length = 40 := by
      rw [List.length_append, List.length_append, length_flatMap_ofUInt64, Vector.length_toList,
        Vector.length_toList, Vector.length_toList]
    simp only [kind, read, need_of_le (Nat.le_of_eq hl.symm), readFlags_payload]
    rfl
  | format definition =>
    cases h
    simp only [kind, read, readText_encode]
    rfl
  | info key value =>
    obtain ⟨head, hk, hp⟩ := bind_ok h
    cases hp
    simp only [kind, read, readKeyed_writeKey hk]
    rfl
  | infoMultiple continued key value =>
    obtain ⟨head, hk, hp⟩ := bind_ok h
    cases hp
    have hl : 1 ≤ ((if continued then 1 else 0) :: (head ++ value) : Bytes).length :=
      Nat.succ_le_succ (Nat.zero_le _)
    have hc : (decide ((((if continued then 1 else 0) :: (head ++ value) : Bytes).getD 0 0) ≠ 0)) =
        continued := by
      cases continued <;> rfl
    simp only [kind, read, need_of_le hl, List.drop_succ_cons, List.drop_zero,
      readKeyed_writeKey hk]
    show Except.ok (Message.infoMultiple _ key value) = _
    rw [hc]
  | parameter key value =>
    obtain ⟨head, hk, hp⟩ := bind_ok h
    cases hp
    simp only [kind, read, readKeyed_writeKey hk]
    rfl
  | addLogged multiId messageId name =>
    cases h
    have hn := LittleEndian.length_ofUInt16 messageId
    have hl : 3 ≤ (multiId :: (LittleEndian.ofUInt16 messageId ++ Utf8.encode name)).length := by
      rw [List.length_cons, List.length_append, hn]
      omega
    simp only [kind, read, need_of_le hl, List.drop_succ_cons, List.drop_zero,
      List.drop_left' hn, readText_encode, LittleEndian.toUInt16_ofUInt16]
    rfl
  | removeLogged messageId =>
    cases h
    have hl : 2 ≤ (LittleEndian.ofUInt16 messageId).length :=
      Nat.le_of_eq (LittleEndian.length_ofUInt16 _).symm
    simp only [kind, read, need_of_le hl, LittleEndian.toUInt16_ofUInt16_self]
    rfl
  | data messageId content =>
    cases h
    have hn := LittleEndian.length_ofUInt16 messageId
    have hl : 2 ≤ (LittleEndian.ofUInt16 messageId ++ content).length := by
      rw [List.length_append, hn]
      omega
    simp only [kind, read, need_of_le hl, List.drop_left' hn, LittleEndian.toUInt16_ofUInt16]
    rfl
  | logging level timestamp text =>
    cases h
    have hn : (LittleEndian.ofUInt64 timestamp).length = 8 := LittleEndian.length_encode 8 _
    have hl : 9 ≤ (level.toByte ::
        (LittleEndian.ofUInt64 timestamp ++ Utf8.encode text)).length := by
      rw [List.length_cons, List.length_append, hn]
      omega
    simp only [kind, read, need_of_le hl, List.drop_succ_cons, List.drop_zero,
      List.drop_left' hn, readText_encode, LittleEndian.toUInt64_ofUInt64, List.getD_cons_zero,
      Level.ofByte_toByte]
    rfl
  | dropout duration =>
    cases h
    have hl : 2 ≤ (LittleEndian.ofUInt16 duration).length :=
      Nat.le_of_eq (LittleEndian.length_ofUInt16 _).symm
    simp only [kind, read, need_of_le hl, LittleEndian.toUInt16_ofUInt16_self]
    rfl
  | sync =>
    cases h
    rfl

/-- **A frame that was written from a message is read as that message.** -/
theorem read_frame {m : Message} {f : Frame} (h : m.frame = .ok f) :
    f.tag = m.kind.tag ∧ f.payload.length ≤ 65535 ∧ read m.kind f.payload = .ok m := by
  obtain ⟨bytes, hp, hf⟩ := bind_ok h
  split at hf
  · rename_i hle
    cases hf
    exact ⟨rfl, hle, read_payload hp⟩
  · cases hf

/-- What is written of a message are the bytes of a proper frame. -/
theorem frame_of_write {m : Message} {bytes : Bytes} (h : m.write = .ok bytes) :
    ∃ f, m.frame = .ok f ∧ f.Proper ∧ f.toBytes = bytes := by
  obtain ⟨f, hf, hb⟩ := bind_ok h
  obtain ⟨ht, hl, -⟩ := read_frame hf
  cases hb
  refine ⟨f, hf, ⟨?_, ?_, hl⟩, rfl⟩
  · rw [ht]
    cases m.kind <;> decide
  · rw [ht]
    cases m.kind <;> decide

end Message

end Log
end FlightLink
