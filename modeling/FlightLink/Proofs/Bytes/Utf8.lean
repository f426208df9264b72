/-
# What is UTF-8

A byte string is text if it is characters one behind the other, each a lead byte and behind it a
byte in every range that `followers` asks for (`Utf8.Valid`). The ranges leave exactly the byte
strings that encode characters (`Utf8.valid_iff_characters`), so a byte string is read unless it
is not valid (`Utf8.decode_eq_error_iff`).

Characters and bytes are compared as numbers: `followers` is a table of five classes of lead bytes
(`Utf8.followers_eq`), one for each length of a character and one for no character.

Key definitions: `Utf8.Single`, `Utf8.Valid`.
Key theorems: `Utf8.single_utf8EncodeChar`, `Utf8.Single.exists_char`,
`Utf8.valid_iff_characters`, `Utf8.decode_eq_error_iff`.
-/
import FlightLink.Bytes.Utf8
import Mathlib.Data.List.Forall2
import Mathlib.Tactic.SplitIfs

namespace FlightLink
namespace Utf8

/-! ### The bytes of a character -/

/-- The bytes of one character: a lead byte, and behind it a byte in each range it asks for. -/
inductive Single : Bytes → Prop where
  | intro {lead : UInt8} {expected : List Range} {tail : Bytes} :
    followers lead = some expected →
    List.Forall₂ (fun r b => Range.contains r b = true) expected tail → Single (lead :: tail)

/-- The range behind a lead byte, narrower behind four of them. -/
def second (lead : UInt8) : Range where
  low := if lead = 0xe0 then 0xa0 else if lead = 0xf0 then 0x90 else 0x80
  high := if lead = 0xed then 0x9f else if lead = 0xf4 then 0x8f else 0xbf

/-- The lead bytes by the length of their characters. -/
theorem followers_eq (lead : UInt8) : followers lead =
    if lead.toNat ≤ 0x7f then some []
    else if lead.toNat < 0xc2 then none
    else if lead.toNat ≤ 0xdf then some [second lead]
    else if lead.toNat ≤ 0xef then some [second lead, continuation]
    else if lead.toNat ≤ 0xf4 then some [second lead, continuation, continuation]
    else none := by
  simp only [followers, second, continuation, UInt8.le_iff_toNat_le, UInt8.lt_iff_toNat_lt,
    ← UInt8.toNat_inj, UInt8.reduceToNat]
  split_ifs <;> first | rfl | omega

theorem contains_iff {r : Range} {b : UInt8} :
    r.contains b = true ↔ r.low.toNat ≤ b.toNat ∧ b.toNat ≤ r.high.toNat := by
  simp [Range.contains, UInt8.le_iff_toNat_le]

theorem contains_continuation {b : UInt8} :
    continuation.contains b = true ↔ 0x80 ≤ b.toNat ∧ b.toNat ≤ 0xbf := contains_iff

theorem contains_second {lead b : UInt8} :
    (second lead).contains b = true ↔
      (0x80 ≤ b.toNat ∧ b.toNat ≤ 0xbf) ∧
        (lead.toNat = 0xe0 → 0xa0 ≤ b.toNat) ∧ (lead.toNat = 0xed → b.toNat ≤ 0x9f) ∧
        (lead.toNat = 0xf0 → 0x90 ≤ b.toNat) ∧ (lead.toNat = 0xf4 → b.toNat ≤ 0x8f) := by
  simp only [contains_iff, second, apply_ite UInt8.toNat, UInt8.reduceToNat, ← UInt8.toNat_inj]
  split_ifs <;> omega

section Lengths

variable {a b c d : UInt8}

theorem single_one (ha : a.toNat ≤ 0x7f) : Single [a] :=
  .intro ((followers_eq a).trans (if_pos ha)) .nil

theorem single_two (ha : 0xc2 ≤ a.toNat ∧ a.toNat ≤ 0xdf) (hb : (second a).contains b = true) :
    Single [a, b] := by
  have hlead : followers a = some [second a] := by
    rw [followers_eq, if_neg (by omega), if_neg (by omega), if_pos (by omega)]
  exact .intro hlead (.cons hb .nil)

theorem single_three (ha : 0xe0 ≤ a.toNat ∧ a.toNat ≤ 0xef) (hb : (second a).contains b = true)
    (hc : continuation.contains c = true) : Single [a, b, c] := by
  have hlead : followers a = some [second a, continuation] := by
    rw [followers_eq, if_neg (by omega), if_neg (by omega), if_neg (by omega), if_pos (by omega)]
  exact .intro hlead (.cons hb (.cons hc .nil))

theorem single_four (ha : 0xf0 ≤ a.toNat ∧ a.toNat ≤ 0xf4) (hb : (second a).contains b = true)
    (hc : continuation.contains c = true) (hd : continuation.contains d = true) :
    Single [a, b, c, d] := by
  have hlead : followers a = some [second a, continuation, continuation] := by
    rw [followers_eq, if_neg (by omega), if_neg (by omega), if_neg (by omega), if_neg (by omega),
      if_pos (by omega)]
  exact .intro hlead (.cons hb (.cons hc (.cons hd .nil)))

end Lengths

/-- A character is encoded as the table asks. -/
theorem single_utf8EncodeChar (c : Char) : Single (String.utf8EncodeChar c) := by
  have hv : c.val.toNat < 0xd800 ∨ 0xdfff < c.val.toNat ∧ c.val.toNat < 0x110000 := c.valid
  unfold String.utf8EncodeChar
  generalize c.val.toNat = v at hv
  dsimp only
  split_ifs with h1 h2 h3
  · apply single_one
    rw [UInt8.toNat_ofNat']
    omega
  · apply single_two
    · rw [UInt8.toNat_ofNat']
      omega
    · simp only [contains_second, UInt8.toNat_ofNat']
      omega
  · apply single_three
    · rw [UInt8.toNat_ofNat']
      omega
    · simp only [contains_second, UInt8.toNat_ofNat']
      omega
    · simp only [contains_continuation, UInt8.toNat_ofNat']
      omega
  · apply single_four
    · rw [UInt8.toNat_ofNat']
      omega
    · simp only [contains_second, UInt8.toNat_ofNat']
      omega
    · simp only [contains_continuation, UInt8.toNat_ofNat']
      omega
    · simp only [contains_continuation, UInt8.toNat_ofNat']
      omega

theorem exists_char_toNat {v : Nat} (h : v.isValidChar) : ∃ c : Char, c.val.toNat = v :=
  ⟨Char.ofNatAux v h, rfl⟩

/-- What the table asks for encodes a character. -/
theorem Single.exists_char {bytes : Bytes} (h : Single bytes) :
    ∃ c, String.utf8EncodeChar c = bytes := by
  obtain ⟨hf, ht⟩ := h
  rename_i lead expected tail
  rw [followers_eq] at hf
  split_ifs at hf with h1 h2 h3 h4 h5 <;> cases hf
  · cases ht
    obtain ⟨c, hc⟩ := exists_char_toNat (v := lead.toNat) (.inl (by omega))
    refine ⟨c, ?_⟩
    simp only [String.utf8EncodeChar, hc, if_pos h1, UInt8.ofNat_toNat]
  · obtain ⟨⟩ | ⟨hb, ⟨⟩⟩ := ht
    rename_i b
    rw [contains_second] at hb
    obtain ⟨c, hc⟩ := exists_char_toNat
      (v := (lead.toNat - 0xc0) * 64 + (b.toNat - 0x80)) (.inl (by omega))
    refine ⟨c, ?_⟩
    simp only [String.utf8EncodeChar, hc]
    rw [if_neg (by omega), if_pos (by omega)]
    simp only [List.cons.injEq, ← UInt8.toNat_inj, UInt8.toNat_ofNat', and_true]
    omega
  · obtain ⟨⟩ | ⟨hb, ⟨⟩ | ⟨hc, ⟨⟩⟩⟩ := ht
    rename_i b c
    rw [contains_second] at hb
    rw [contains_continuation] at hc
    obtain ⟨char, hchar⟩ := exists_char_toNat
      (v := (lead.toNat - 0xe0) * 4096 + (b.toNat - 0x80) * 64 + (c.toNat - 0x80))
      (by unfold Nat.isValidChar; omega)
    refine ⟨char, ?_⟩
    simp only [String.utf8EncodeChar, hchar]
    rw [if_neg (by omega), if_neg (by omega), if_pos (by omega)]
    simp only [List.cons.injEq, ← UInt8.toNat_inj, UInt8.toNat_ofNat', and_true]
    omega
  · obtain ⟨⟩ | ⟨hb, ⟨⟩ | ⟨hc, ⟨⟩ | ⟨hd, ⟨⟩⟩⟩⟩ := ht
    rename_i b c d
    rw [contains_second] at hb
    rw [contains_continuation] at hc hd
    obtain ⟨char, hchar⟩ := exists_char_toNat
      (v := (lead.toNat - 0xf0) * 262144 + (b.toNat - 0x80) * 4096 + (c.toNat - 0x80) * 64
        + (d.toNat - 0x80)) (.inr (by omega))
    refine ⟨char, ?_⟩
    simp only [String.utf8EncodeChar, hchar]
    rw [if_neg (by omega), if_neg (by omega), if_neg (by omega)]
    simp only [List.cons.injEq, ← UInt8.toNat_inj, UInt8.toNat_ofNat', and_true]
    omega

/-! ### Characters behind each other -/

/-- Text: characters, one behind the other. -/
inductive Valid : Bytes → Prop where
  | nil : Valid []
  | cons {char more : Bytes} : Single char → Valid more → Valid (char ++ more)

/-- **A byte string is valid if and only if it encodes characters.** -/
theorem valid_iff_characters {bytes : Bytes} :
    Valid bytes ↔ ∃ text : List Char, text.flatMap String.utf8EncodeChar = bytes := by
  constructor
  · intro h
    induction h with
    | nil => exact ⟨[], rfl⟩
    | cons hchar _ ih =>
      obtain ⟨c, rfl⟩ := hchar.exists_char
      obtain ⟨text, rfl⟩ := ih
      exact ⟨c :: text, List.flatMap_cons⟩
  · rintro ⟨text, rfl⟩
    induction text with
    | nil => exact .nil
    | cons c text ih =>
      rw [List.flatMap_cons]
      exact .cons (single_utf8EncodeChar c) ih

/-- The bytes of a text are those of its characters. -/
theorem encode_ofList (text : List Char) :
    encode (String.ofList text) = text.flatMap String.utf8EncodeChar := by
  simp [encode, List.utf8Encode]

/-- A byte string is valid if and only if it is the bytes of a text. -/
theorem valid_iff {bytes : Bytes} : Valid bytes ↔ ∃ text, encode text = bytes := by
  rw [valid_iff_characters]
  constructor
  · rintro ⟨text, rfl⟩
    exact ⟨String.ofList text, encode_ofList text⟩
  · rintro ⟨text, rfl⟩
    refine ⟨text.toList, ?_⟩
    rw [← encode_ofList, String.ofList_toList]

/-- **Reading fails exactly on what is not valid**, and says where it stops being text. -/
theorem decode_eq_error_iff {bytes : Bytes} {fault : Fault} :
    decode bytes = .error fault ↔ ¬ Valid bytes ∧ fault = Fault.ofBytes bytes := by
  have hok : (∃ text, decode bytes = .ok text) ↔ Valid bytes := by
    simp only [decode_eq_ok_iff, valid_iff]
  rw [← hok]
  unfold decode
  cases String.fromUTF8? bytes.toByteArray with
  | none => simp [eq_comm]
  | some text => simp

end Utf8
end FlightLink
