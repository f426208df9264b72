/-
# When a message can be written, and what it then looks like

Two lengths have fields too small for them: that of a key, one byte, and that of a payload, two.
A message is written unless one of them overflows, and the key is looked at first
(`Message.write_of_long_key`, `Message.write_of_payload`). What is written is the length of the
payload, the tag of the kind and the payload, and all three are read back from it
(`Message.reads_what_it_writes`).

Key definitions: `Message.keyLength`.
Key theorems: `Message.exists_payload`, `Message.write_of_payload`,
`Message.reads_what_it_writes`.
-/
import FlightLink.Proofs.Log.Codec

namespace FlightLink
namespace Log

/-- A frame spelled out: the length of the payload in two bytes, the tag, the payload. -/
theorem Frame.toBytes_eq {f : Frame} (h : f.payload.length ≤ 65535) :
    f.toBytes = LittleEndian.encode 2 f.payload.length ++ f.tag :: f.payload := by
  have hsize : (UInt16.ofNat f.payload.length).toNat = f.payload.length :=
    UInt16.toNat_ofNat_of_lt' (Nat.lt_succ_of_le h)
  simp [toBytes, header, Header.write, LittleEndian.ofUInt16, hsize]

namespace Message

/-- The length of the key in bytes; a message without a key has none. -/
def keyLength : Message → Nat
  | .info key _ => (Utf8.encode key).length
  | .infoMultiple _ key _ => (Utf8.encode key).length
  | .parameter key _ => (Utf8.encode key).length
  | _ => 0

/-! ### Keys -/

theorem writeKey_of_le {key : String} (h : (Utf8.encode key).length ≤ 255) :
    writeKey key = .ok (UInt8.ofNat (Utf8.encode key).length :: Utf8.encode key) := by
  simp [writeKey, h]

theorem writeKey_of_lt {key : String} (h : 255 < (Utf8.encode key).length) :
    writeKey key = .error .key := by
  simp [writeKey, Nat.not_le_of_lt h]

/-! ### Payloads -/

variable {m : Message}

/-- A key that fits gives a payload, however long it gets. -/
theorem exists_payload (h : m.keyLength ≤ 255) : ∃ payload, m.payload = .ok payload := by
  cases m with
  | info key value | infoMultiple continued key value | parameter key value =>
    simp only [payload, writeKey_of_le h]
    exact ⟨_, rfl⟩
  | flagBits | format | addLogged | removeLogged | data | logging | dropout | sync =>
    exact ⟨_, rfl⟩

theorem payload_of_long_key (h : 255 < m.keyLength) : m.payload = .error .key := by
  cases m with
  | info key value | infoMultiple continued key value | parameter key value =>
    simp only [payload, writeKey_of_lt h]
    rfl
  | flagBits | format | addLogged | removeLogged | data | logging | dropout | sync =>
    exact absurd h (Nat.not_lt_zero 255)

/-! ### Messages -/

/-- A key that is too long is reported, whatever else is. -/
theorem write_of_long_key (h : 255 < m.keyLength) : m.write = .error .key := by
  simp only [write, frame, payload_of_long_key h]
  rfl

/-- A payload is written if its length fits. -/
theorem write_of_payload {payload : Bytes} (h : m.payload = .ok payload) :
    m.write =
      if payload.length ≤ 65535 then
        .ok (LittleEndian.encode 2 payload.length ++ m.kind.tag :: payload)
      else .error .payload := by
  have hframe : m.frame =
      if payload.length ≤ 65535 then .ok ⟨m.kind.tag, payload⟩ else .error .payload := by
    simp only [frame, h]
    rfl
  by_cases hlength : payload.length ≤ 65535
  · rw [if_pos hlength] at hframe ⊢
    calc m.write = .ok (Frame.mk m.kind.tag payload).toBytes := by rw [write, hframe]; rfl
      _ = _ := by rw [Frame.toBytes_eq hlength]
  · rw [if_neg hlength] at hframe ⊢
    rw [write, hframe]
    rfl

/-- **What a message is written as, and that it is read back.** A key of more than 255 bytes is
reported first. With any other key there is a payload; one of more than 65535 bytes is reported,
and any other is written behind its length and the tag of the kind. A header read from these
bytes has this length and this tag, is credible, and the tag stands for the kind; and the
payload, read as this kind, is the message. -/
theorem reads_what_it_writes (m : Message) :
    (255 < m.keyLength → m.write = .error .key) ∧
      (m.keyLength ≤ 255 → ∃ payload, m.payload = .ok payload ∧
        (65535 < payload.length → m.write = .error .payload) ∧
        (payload.length ≤ 65535 →
          m.write = .ok (LittleEndian.encode 2 payload.length ++ m.kind.tag :: payload) ∧
          ∃ header : Header,
            Header.read? (LittleEndian.encode 2 payload.length ++ m.kind.tag :: payload) =
              some (header, payload) ∧
            header.size.toNat = payload.length ∧ header.tag = m.kind.tag ∧
            header.credible = true ∧ Kind.ofTag? header.tag = some m.kind ∧
            read m.kind payload = .ok m)) := by
  refine ⟨write_of_long_key, ?_⟩
  intro hkey
  obtain ⟨payload, hp⟩ := exists_payload hkey
  have hw := write_of_payload hp
  refine ⟨payload, hp, ?_, ?_⟩
  · intro hlong
    rw [hw, if_neg (Nat.not_le_of_lt hlong)]
  · intro hlength
    rw [if_pos hlength] at hw
    let f : Frame := ⟨m.kind.tag, payload⟩
    have hread : Header.read? f.toBytes = some (f.header, payload) := f.header.read_write payload
    rw [Frame.toBytes_eq hlength] at hread
    refine ⟨hw, f.header, hread, ?_, rfl, ?_, Kind.ofTag?_tag m.kind, read_payload hp⟩
    · exact UInt16.toNat_ofNat_of_lt' (Nat.lt_succ_of_le hlength)
    · show (Header.mk _ m.kind.tag).credible = true
      cases m.kind <;> rfl

end Message

end Log
end FlightLink
