/-
# UTF-8 text

Texts travel as UTF-8. A byte string that is no text breaks at one place: after
its longest valid part the next character either is cut off by the end, or is
broken by a byte that cannot continue it. `Fault.ofBytes` finds that place in
one pass; which bytes may follow a lead byte is the table `followers`.

Key definitions: `Utf8.decode`, `Utf8.encode`, `Utf8.followers`, `Utf8.Fault`.
Key theorems: `decode_encode`, `encode_of_decode`, `decode_eq_ok_iff`.
-/
import FlightLink.Bytes

namespace FlightLink
namespace Utf8

/-- An inclusive range of bytes. -/
structure Range where
  low : UInt8
  high : UInt8
  deriving DecidableEq, Repr

/-- The byte lies in the range. -/
def Range.contains (r : Range) (b : UInt8) : Bool := r.low ≤ b && b ≤ r.high

/-- What any byte after the second lies in, and most second bytes too. -/
def continuation : Range := ⟨0x80, 0xbf⟩

/-- The ranges of the bytes that must follow a lead byte, or nothing when the byte
leads no character. The narrow second ranges keep out overlong forms, surrogates
and values past the last code point. -/
def followers (lead : UInt8) : Option (List Range) :=
  if lead ≤ 0x7f then some []
  else if lead < 0xc2 then none
  else if lead ≤ 0xdf then some [continuation]
  else if lead = 0xe0 then some [⟨0xa0, 0xbf⟩, continuation]
  else if lead = 0xed then some [⟨0x80, 0x9f⟩, continuation]
  else if lead ≤ 0xef then some [continuation, continuation]
  else if lead = 0xf0 then some [⟨0x90, 0xbf⟩, continuation, continuation]
  else if lead ≤ 0xf3 then some [continuation, continuation, continuation]
  else if lead = 0xf4 then some [⟨0x80, 0x8f⟩, continuation, continuation]
  else none

/-- Where a byte string stops being text. -/
structure Fault where
  /-- Length of the longest valid part in front. -/
  validUpTo : Nat
  /-- Length of the broken start of a character, or nothing when the end cut it off. -/
  brokenLength : Option Nat
  deriving DecidableEq, Repr

/-- Read on from within a character that began at `start`: `seen` of its bytes are
read and `expected` are the ranges of those to come. -/
def scan (start seen : Nat) : List Range → Bytes → Fault
  | [], [] => ⟨start + seen, none⟩
  | _ :: _, [] => ⟨start, none⟩
  | [], b :: bs =>
    match followers b with
    | some expected => scan (start + seen) 1 expected bs
    | none => ⟨start + seen, some 1⟩
  | r :: expected, b :: bs =>
    if r.contains b then scan start (seen + 1) expected bs else ⟨start, some seen⟩

/-- Where the byte string stops being text; at its end if it is text throughout. -/
def Fault.ofBytes (bytes : Bytes) : Fault := scan 0 0 [] bytes

/-- The fault in words. -/
def Fault.message (fault : Fault) : String :=
  match fault.brokenLength with
  | none => "incomplete utf-8 byte sequence from index " ++ toString fault.validUpTo
  | some length =>
    "invalid utf-8 sequence of " ++ toString length ++ " bytes from index "
      ++ toString fault.validUpTo

/-- The bytes of a text. -/
def encode (text : String) : Bytes := text.toUTF8.data.toList

/-- The text that a byte string is, or where it stops being one. -/
def decode (bytes : Bytes) : Except Fault String :=
  match String.fromUTF8? bytes.toByteArray with
  | some text => .ok text
  | none => .error (Fault.ofBytes bytes)

/-! ### Reading undoes writing -/

theorem toByteArray_encode (text : String) : (encode text).toByteArray = text.toUTF8 := by
  apply ByteArray.ext
  apply Array.toList_inj.mp
  simp [encode]

theorem decode_encode (text : String) : decode (encode text) = .ok text := by
  have h : String.fromUTF8? (encode text).toByteArray = some text := by
    rw [toByteArray_encode]
    cases text with
    | ofByteArray bytes valid => simp [String.fromUTF8?, String.fromUTF8, valid]
  simp [decode, h]

theorem encode_of_decode {bytes : Bytes} {text : String} (h : decode bytes = .ok text) :
    encode text = bytes := by
  unfold decode at h
  split at h
  · rename_i s hs
    injection h with h
    subst h
    unfold String.fromUTF8? at hs
    split at hs
    · rename_i valid
      injection hs with hs
      subst hs
      simp [encode, String.fromUTF8]
    · cases hs
  · cases h

/-- **Reading accepts exactly what writing produces.** -/
theorem decode_eq_ok_iff {bytes : Bytes} {text : String} :
    decode bytes = .ok text ↔ encode text = bytes :=
  ⟨encode_of_decode, fun h => h ▸ decode_encode text⟩

end Utf8
end FlightLink
