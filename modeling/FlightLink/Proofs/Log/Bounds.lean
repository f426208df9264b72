/-
# Reading within the payload

A payload is indexed and sliced while it is read. Here it is read with care: the reading comes to
nothing at the first byte that is not there (`Message.Attempt`). It never does, because before
bytes are looked at it was made sure that there are so many (`Message.Attempt.need_bind`), and
then it is the reading without care (`Message.read?_eq`).

Key definitions: `Message.Attempt`, `Message.readKeyed?`, `Message.readFlags?`, `Message.read?`.
Key theorems: `Message.Attempt.need_bind`, `Message.read?_eq`.
-/
import FlightLink.Proofs.Log.Codec

namespace FlightLink
namespace Log

open LittleEndian (toUInt16 toUInt64)

namespace Message

theorem need_of_lt {minimum : Nat} {bytes : Bytes} (h : bytes.length < minimum) :
    need minimum bytes = .error (.notEnoughData bytes.length minimum) := if_pos h

/-- A reading that comes to nothing where a byte is looked at that is not there. -/
abbrev Attempt := ExceptT Fault Option

namespace Attempt

variable {α β : Type} {bytes : Bytes}

/-- A reading that looks at no byte. -/
def of (x : Except Fault α) : Attempt α := ExceptT.mk (some x)

/-- The byte at a place. -/
def byte (i : Nat) (bytes : Bytes) : Attempt UInt8 := ExceptT.lift bytes[i]?

/-- The first bytes. -/
def front (n : Nat) (bytes : Bytes) : Attempt Bytes :=
  ExceptT.lift ((bytes.cut? n).map Prod.fst)

/-- The bytes behind the first ones. -/
def rest (n : Nat) (bytes : Bytes) : Attempt Bytes :=
  ExceptT.lift ((bytes.cut? n).map Prod.snd)

theorem byte_of_lt {i : Nat} (h : i < bytes.length) : byte i bytes = pure (bytes.getD i 0) := by
  unfold byte
  rw [List.getElem?_eq_getElem h, List.getD_eq_getElem?_getD, List.getElem?_eq_getElem h]
  rfl

theorem front_of_le {n : Nat} (h : n ≤ bytes.length) : front n bytes = pure (bytes.take n) := by
  unfold front
  rw [Bytes.cut?_of_le h]
  rfl

theorem rest_of_le {n : Nat} (h : n ≤ bytes.length) : rest n bytes = pure (bytes.drop n) := by
  unfold rest
  rw [Bytes.cut?_of_le h]
  rfl

theorem of_bind (x : Except Fault α) (f : α → Except Fault β) :
    of (x >>= f) = of x >>= fun a => of (f a) := by
  cases x <;> rfl

/-- What follows a check may rely on it. -/
theorem need_bind {minimum : Nat} {f : Unit → Attempt α} {x : Except Fault α}
    (h : minimum ≤ bytes.length → f () = of x) :
    (of (need minimum bytes) >>= f) = of (need minimum bytes >>= fun _ => x) := by
  rcases Nat.lt_or_ge bytes.length minimum with hlt | hle
  · rw [need_of_lt hlt]
    rfl
  · rw [need_of_le hle]
    exact h hle

/-- The 16-bit word in front, byte by byte. -/
def word16 (bytes : Bytes) : Attempt UInt16 := do
  let low ← byte 0 bytes
  let high ← byte 1 bytes
  return toUInt16 [low, high]

/-- The 64-bit word in front. -/
def word64 (bytes : Bytes) : Attempt UInt64 := toUInt64 <$> front 8 bytes

theorem word16_of_le (h : 2 ≤ bytes.length) : word16 bytes = pure (toUInt16 bytes) := by
  unfold word16
  rw [byte_of_lt (by omega), byte_of_lt (by omega)]
  match bytes, h with
  | low :: high :: rest, _ => rfl

theorem word64_of_le (h : 8 ≤ bytes.length) : word64 bytes = pure (toUInt64 bytes) := by
  have htake : toUInt64 (bytes.take 8) = toUInt64 bytes := by
    rw [toUInt64, List.take_take, Nat.min_self, toUInt64]
  unfold word64
  rw [front_of_le h, map_pure, htake]

end Attempt

open Attempt in
/-- A key behind its length byte, and what follows it, read with care. -/
def readKeyed? (bytes : Bytes) : Attempt (String × Bytes) := do
  of (need 1 bytes)
  let length ← byte 0 bytes
  of (need (1 + length.toNat) bytes)
  let keyed ← rest 1 bytes
  let key ← front length.toNat keyed
  let value ← rest length.toNat keyed
  return (← of (readText key), value)

open Attempt in
/-- The flags, read with care: two runs of eight bytes and three words. -/
def readFlags? (payload : Bytes) : Attempt FlagBits := do
  let compatible ← front 8 payload
  let incompatible ← front 8 (← rest 8 payload)
  let first ← word64 (← rest 16 payload)
  let second ← word64 (← rest 24 payload)
  let third ← word64 (← rest 32 payload)
  return ⟨Vector.ofFn fun i => compatible.getD i 0, Vector.ofFn fun i => incompatible.getD i 0,
    #v[first, second, third]⟩

open Attempt in
/-- The message of a payload of the given kind, read with care. -/
def read? (kind : Kind) (payload : Bytes) : Attempt Message :=
  match kind with
  | .flagBits => do
    of (need 40 payload)
    return .flagBits (← readFlags? payload)
  | .format => do
    return .format (← of (readText payload))
  | .info => do
    let (key, value) ← readKeyed? payload
    return .info key value
  | .infoMultiple => do
    of (need 1 payload)
    let (key, value) ← readKeyed? (← rest 1 payload)
    let mark ← byte 0 payload
    return .infoMultiple (mark ≠ 0) key value
  | .parameter => do
    let (key, value) ← readKeyed? payload
    return .parameter key value
  | .addLogged => do
    of (need 3 payload)
    let multiId ← byte 0 payload
    let messageId ← word16 (← rest 1 payload)
    let name ← of (readText (← rest 3 payload))
    return .addLogged multiId messageId name
  | .removeLogged => do
    of (need 2 payload)
    return .removeLogged (← word16 payload)
  | .data => do
    of (need 2 payload)
    let messageId ← word16 payload
    return .data messageId (← rest 2 payload)
  | .logging => do
    of (need 9 payload)
    let level ← byte 0 payload
    let timestamp ← word64 (← rest 1 payload)
    let text ← of (readText (← rest 9 payload))
    return .logging (Level.ofByte level) timestamp text
  | .dropout => do
    of (need 2 payload)
    return .dropout (← word16 payload)
  | .sync => do
    of (need syncMagic.length payload)
    if (← front syncMagic.length payload) = syncMagic then return .sync
    else of (.error .wrongSyncMagic)

theorem readKeyed?_eq (bytes : Bytes) : readKeyed? bytes = Attempt.of (readKeyed bytes) := by
  apply Attempt.need_bind
  intro h1
  rw [Attempt.byte_of_lt h1, pure_bind]
  apply Attempt.need_bind
  intro hl
  have hrest : (bytes.getD 0 0).toNat ≤ (bytes.drop 1).length := by
    rw [List.length_drop]
    omega
  rw [Attempt.rest_of_le h1, pure_bind, Attempt.front_of_le hrest, pure_bind,
    Attempt.rest_of_le hrest, pure_bind, Attempt.of_bind, List.drop_drop]
  rfl

theorem readFlags?_eq {payload : Bytes} (h : 40 ≤ payload.length) :
    readFlags? payload = pure (readFlags payload) := by
  have hcompatible : (Vector.ofFn fun i : Fin 8 => (payload.take 8).getD i 0) =
      Vector.ofFn fun i : Fin 8 => payload.getD i 0 := by
    ext i hi
    simp [List.getD_eq_getElem?_getD]
  have hincompatible : (Vector.ofFn fun i : Fin 8 => ((payload.drop 8).take 8).getD i 0) =
      Vector.ofFn fun i : Fin 8 => payload.getD (8 + i) 0 := by
    ext i hi
    simp [List.getD_eq_getElem?_getD]
  have hread : readFlags? payload = pure
      ⟨Vector.ofFn fun i => (payload.take 8).getD i 0,
        Vector.ofFn fun i => ((payload.drop 8).take 8).getD i 0,
        #v[toUInt64 (payload.drop 16), toUInt64 (payload.drop 24),
          toUInt64 (payload.drop 32)]⟩ := by
    unfold readFlags?
    simp (disch := (try rw [List.length_drop]); omega) only [Attempt.front_of_le,
      Attempt.rest_of_le, Attempt.word64_of_le, pure_bind]
  rw [hread, hcompatible, hincompatible]
  rfl

/-- **No byte is looked at that is not there.** -/
theorem read?_eq (kind : Kind) (payload : Bytes) :
    read? kind payload = Attempt.of (read kind payload) := by
  have hrest {n m : Nat} (h : n + m ≤ payload.length) : m ≤ (payload.drop n).length := by
    rw [List.length_drop]
    omega
  cases kind with
  | flagBits =>
    apply Attempt.need_bind
    intro h
    rw [readFlags?_eq h]
    rfl
  | format => exact (Attempt.of_bind _ _).symm
  | info | parameter =>
    unfold read? read
    rw [readKeyed?_eq, Attempt.of_bind]
    rfl
  | infoMultiple =>
    apply Attempt.need_bind
    intro h
    rw [Attempt.rest_of_le h, pure_bind, Attempt.byte_of_lt h, readKeyed?_eq, Attempt.of_bind]
    rfl
  | addLogged =>
    apply Attempt.need_bind
    intro h
    rw [Attempt.byte_of_lt (by omega), pure_bind, Attempt.rest_of_le (by omega), pure_bind,
      Attempt.word16_of_le (hrest h), pure_bind, Attempt.rest_of_le h, pure_bind, Attempt.of_bind]
    rfl
  | removeLogged | dropout =>
    apply Attempt.need_bind
    intro h
    rw [Attempt.word16_of_le h]
    rfl
  | data =>
    apply Attempt.need_bind
    intro h
    rw [Attempt.word16_of_le h, pure_bind, Attempt.rest_of_le h]
    rfl
  | logging =>
    apply Attempt.need_bind
    intro h
    rw [Attempt.byte_of_lt (by omega), pure_bind, Attempt.rest_of_le (by omega), pure_bind,
      Attempt.word64_of_le (hrest h), pure_bind, Attempt.rest_of_le h, pure_bind, Attempt.of_bind]
    rfl
  | sync =>
    apply Attempt.need_bind
    intro h
    rw [Attempt.front_of_le h, pure_bind]
    split
    · rfl
    · rfl

end Message

end Log
end FlightLink
