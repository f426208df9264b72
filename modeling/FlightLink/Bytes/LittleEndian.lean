/-
# Little-endian integers

The integers of every payload are written least significant byte first.
`encode w n` writes `n` in `w` bytes and `decode` reads the value of any byte
string; they undo each other, up to what `w` bytes can hold.

Key definitions: `LittleEndian.encode`, `LittleEndian.decode`, `LittleEndian.values`.
Key theorems: `decode_encode`, `encode_decode`, `decode_lt`, `encode_decode_take`.
-/
import FlightLink.Bytes

namespace FlightLink
namespace LittleEndian

/-- `n` in `width` bytes; what does not fit is dropped. -/
def encode : Nat → Nat → Bytes
  | 0, _ => []
  | width + 1, n => UInt8.ofNat n :: encode width (n / 256)

/-- The value of a byte string. -/
def decode : Bytes → Nat
  | [] => 0
  | b :: bs => b.toNat + 256 * decode bs

/-- How many values so many bytes can hold. -/
def values : Nat → Nat
  | 0 => 1
  | width + 1 => 256 * values width

@[simp] theorem length_encode : ∀ width n : Nat, (encode width n).length = width
  | 0, _ => rfl
  | width + 1, n => by simp [encode, length_encode width]

theorem decode_encode : ∀ width n : Nat, decode (encode width n) = n % values width
  | 0, n => by simp [encode, decode, values, Nat.mod_one]
  | width + 1, n => by
    have h := decode_encode width (n / 256)
    have h8 : (UInt8.ofNat n).toNat = n % 256 := by simp
    simp only [encode, decode, values, h, h8]
    rw [Nat.mod_mul]

theorem encode_decode : ∀ bytes : Bytes, encode bytes.length (decode bytes) = bytes
  | [] => rfl
  | b :: bs => by
    have hb : b.toNat < 256 := b.toNat_lt
    have hd : (b.toNat + 256 * decode bs) / 256 = decode bs := by omega
    have hm : UInt8.ofNat (b.toNat + 256 * decode bs) = b := by
      apply UInt8.toNat_inj.mp
      simp only [UInt8.toNat_ofNat']
      omega
    simp [encode, decode, hd, hm, encode_decode bs]

theorem decode_lt : ∀ bytes : Bytes, decode bytes < values bytes.length
  | [] => by simp [decode, values]
  | b :: bs => by
    have hb : b.toNat < 256 := b.toNat_lt
    have h := decode_lt bs
    simp only [decode, values, List.length_cons]
    omega

/-! ### The widths in use -/

/-- A 16-bit word in two bytes. -/
def ofUInt16 (n : UInt16) : Bytes := encode 2 n.toNat

/-- A 32-bit word in four bytes. -/
def ofUInt32 (n : UInt32) : Bytes := encode 4 n.toNat

/-- A 64-bit word in eight bytes. -/
def ofUInt64 (n : UInt64) : Bytes := encode 8 n.toNat

/-- A signed 64-bit word in eight bytes, in two's complement. -/
def ofInt64 (n : Int64) : Bytes := ofUInt64 n.toUInt64

/-- The 16-bit word that a byte string begins with. -/
def toUInt16 (bytes : Bytes) : UInt16 := UInt16.ofNat (decode (bytes.take 2))

/-- The 32-bit word that a byte string begins with. -/
def toUInt32 (bytes : Bytes) : UInt32 := UInt32.ofNat (decode (bytes.take 4))

/-- The 64-bit word that a byte string begins with. -/
def toUInt64 (bytes : Bytes) : UInt64 := UInt64.ofNat (decode (bytes.take 8))

/-- The signed 64-bit word that a byte string begins with, in two's complement. -/
def toInt64 (bytes : Bytes) : Int64 := (toUInt64 bytes).toInt64

@[simp] theorem length_ofUInt16 (n : UInt16) : (ofUInt16 n).length = 2 := length_encode 2 _

@[simp] theorem length_ofUInt32 (n : UInt32) : (ofUInt32 n).length = 4 := length_encode 4 _

@[simp] theorem length_ofUInt64 (n : UInt64) : (ofUInt64 n).length = 8 := length_encode 8 _

@[simp] theorem length_ofInt64 (n : Int64) : (ofInt64 n).length = 8 := length_encode 8 _

@[simp] theorem toUInt16_ofUInt16 (n : UInt16) (rest : Bytes) :
    toUInt16 (ofUInt16 n ++ rest) = n := by
  have h : n.toNat < values 2 := n.toNat_lt
  rw [toUInt16, ofUInt16, List.take_left' (length_encode 2 n.toNat), decode_encode,
    Nat.mod_eq_of_lt h, UInt16.ofNat_toNat]

@[simp] theorem toUInt32_ofUInt32 (n : UInt32) (rest : Bytes) :
    toUInt32 (ofUInt32 n ++ rest) = n := by
  have h : n.toNat < values 4 := n.toNat_lt
  rw [toUInt32, ofUInt32, List.take_left' (length_encode 4 n.toNat), decode_encode,
    Nat.mod_eq_of_lt h, UInt32.ofNat_toNat]

@[simp] theorem toUInt64_ofUInt64 (n : UInt64) (rest : Bytes) :
    toUInt64 (ofUInt64 n ++ rest) = n := by
  have h : n.toNat < values 8 := n.toNat_lt
  rw [toUInt64, ofUInt64, List.take_left' (length_encode 8 n.toNat), decode_encode,
    Nat.mod_eq_of_lt h, UInt64.ofNat_toNat]

@[simp] theorem toInt64_ofInt64 (n : Int64) (rest : Bytes) :
    toInt64 (ofInt64 n ++ rest) = n := by
  rw [toInt64, ofInt64, toUInt64_ofUInt64, Int64.toInt64_toUInt64]

/-! ### A word and nothing else -/

theorem toUInt16_ofUInt16_self (n : UInt16) : toUInt16 (ofUInt16 n) = n := by
  have h := toUInt16_ofUInt16 n []
  rwa [List.append_nil] at h

theorem toUInt32_ofUInt32_self (n : UInt32) : toUInt32 (ofUInt32 n) = n := by
  have h := toUInt32_ofUInt32 n []
  rwa [List.append_nil] at h

theorem toInt64_ofInt64_self (n : Int64) : toInt64 (ofInt64 n) = n := by
  have h := toInt64_ofInt64 n []
  rwa [List.append_nil] at h

/-! ### Words of longer byte strings -/

/-- The first bytes of a string are those of the value they have. -/
theorem encode_decode_take {width : Nat} {bytes : Bytes} (h : width ≤ bytes.length) :
    decode (bytes.take width) < values width ∧
      encode width (decode (bytes.take width)) = bytes.take width := by
  have hl : (bytes.take width).length = width := List.length_take_of_le h
  have hlt := decode_lt (bytes.take width)
  have heq := encode_decode (bytes.take width)
  rw [hl] at hlt heq
  exact ⟨hlt, heq⟩

theorem ofUInt16_toUInt16 {bytes : Bytes} (h : 2 ≤ bytes.length) :
    ofUInt16 (toUInt16 bytes) = bytes.take 2 := by
  obtain ⟨hlt, heq⟩ := encode_decode_take h
  rw [ofUInt16, toUInt16, UInt16.toNat_ofNat_of_lt' hlt, heq]

theorem ofUInt32_toUInt32 {bytes : Bytes} (h : 4 ≤ bytes.length) :
    ofUInt32 (toUInt32 bytes) = bytes.take 4 := by
  obtain ⟨hlt, heq⟩ := encode_decode_take h
  rw [ofUInt32, toUInt32, UInt32.toNat_ofNat_of_lt' hlt, heq]

theorem ofUInt64_toUInt64 {bytes : Bytes} (h : 8 ≤ bytes.length) :
    ofUInt64 (toUInt64 bytes) = bytes.take 8 := by
  obtain ⟨hlt, heq⟩ := encode_decode_take h
  rw [ofUInt64, toUInt64, UInt64.toNat_ofNat_of_lt' hlt, heq]

theorem ofInt64_toInt64 {bytes : Bytes} (h : 8 ≤ bytes.length) :
    ofInt64 (toInt64 bytes) = bytes.take 8 := by
  rw [ofInt64, toInt64, UInt64.toUInt64_toInt64, ofUInt64_toUInt64 h]

end LittleEndian
end FlightLink
