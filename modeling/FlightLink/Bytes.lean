/-
# Byte strings

Everything on the link is a byte string. A sender may leave out trailing zero
bytes of a payload, so a reader first brings what it got to the full length
(`Bytes.fit`). Where nothing is made up, a cut past the end of the bytes fails (`Bytes.cut?`).

Key definitions: `Bytes`, `Bytes.fit`, `Bytes.cut?`.
Key theorems: `Bytes.length_fit`, `Bytes.fit_of_length`, `Bytes.cut?_of_le`.
-/

namespace FlightLink

/-- A run of bytes, first byte first. -/
abbrev Bytes := List UInt8

namespace Bytes

/-- The first `n` bytes, made up to `n` with zeros when there are fewer. -/
def fit (n : Nat) (bytes : Bytes) : Bytes := (bytes.rightpad n 0).take n

@[simp] theorem length_fit (n : Nat) (bytes : Bytes) : (fit n bytes).length = n := by
  simp only [fit, List.rightpad, List.length_take, List.length_append, List.length_replicate]
  omega

/-- A payload of the full length is its own fit. -/
theorem fit_of_length {n : Nat} {bytes : Bytes} (h : bytes.length = n) : fit n bytes = bytes := by
  subst h
  simp [fit, List.rightpad]

/-- Bytes that do not fill the length are followed by zeros. -/
theorem fit_of_le {n : Nat} {bytes : Bytes} (h : bytes.length ≤ n) :
    fit n bytes = bytes ++ List.replicate (n - bytes.length) 0 := by
  rw [fit, List.rightpad, List.take_of_length_le]
  rw [List.length_append, List.length_replicate]
  omega

theorem fit_fit (n : Nat) (bytes : Bytes) : fit n (fit n bytes) = fit n bytes :=
  fit_of_length (length_fit n bytes)

/-- What follows the full length does not count. -/
theorem fit_append {n : Nat} {bytes : Bytes} (h : bytes.length = n) (more : Bytes) :
    fit n (bytes ++ more) = bytes := by
  subst h
  simp [fit, List.rightpad]

/-- Trailing zeros do not count either. -/
theorem fit_append_zeros {n k : Nat} {bytes : Bytes} (h : bytes.length + k ≤ n) :
    fit n (bytes ++ List.replicate k 0) = fit n bytes := by
  have e : k + (n - (bytes.length + k)) = n - bytes.length := by omega
  simp [fit, List.rightpad, List.append_assoc, List.replicate_append_replicate, e]

/-- The first `n` bytes and the rest, if there are so many. -/
def cut? (bytes : Bytes) (n : Nat) : Option (Bytes × Bytes) :=
  if n ≤ bytes.length then some (bytes.take n, bytes.drop n) else none

theorem cut?_of_le {bytes : Bytes} {n : Nat} (h : n ≤ bytes.length) :
    bytes.cut? n = some (bytes.take n, bytes.drop n) := if_pos h

theorem le_of_cut? {bytes front rest : Bytes} {n : Nat} (h : bytes.cut? n = some (front, rest)) :
    n ≤ bytes.length ∧ rest.length = bytes.length - n := by
  unfold cut? at h
  split at h
  · rename_i hle
    cases h
    exact ⟨hle, List.length_drop⟩
  · cases h

end Bytes

end FlightLink
