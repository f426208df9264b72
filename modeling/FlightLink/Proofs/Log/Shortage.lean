/-
# The numbers of a payload that is too short

A payload that is shorter than its fixed part is refused with two numbers: how many bytes there
were, and how many it would have taken. Both count from where the check was made. That is the
front of the payload, except for the key of an `infoMultiple` message: it is read from the bytes
behind the mark, and the mark is in neither number (`Kind.uncounted`). With this byte put back to
both, the numbers are right (`Message.shortage_reported`).

The second number is what is asked for next, and not all that the message will take: of a key whose
length byte is not there, only this byte is asked for.

Key definitions: `Kind.uncounted`, `Kind.demand`.
Key theorems: `Message.read_short`, `Message.shortage_reported`.
-/
import FlightLink.Proofs.Log.Reading

namespace FlightLink
namespace Log

/-- A key takes no less room when more bytes follow. -/
theorem keyedLength_append (bytes more : Bytes) :
    keyedLength bytes ≤ keyedLength (bytes ++ more) := by
  match bytes, more with
  | [], [] => exact Nat.le_refl 1
  | [], size :: _ => exact Nat.le_add_right 1 size.toNat
  | size :: _, _ => exact Nat.le_refl (1 + size.toNat)

namespace Kind

/-- The bytes in front that are left out when the length of a payload is reported: the mark of an
`infoMultiple` message, if it is there. -/
def uncounted : Kind → Bytes → Nat
  | .infoMultiple, _ :: _ => 1
  | _, _ => 0

/-- The length that a payload is reported to fall short of. -/
def demand : Kind → Bytes → Nat
  | .infoMultiple, [] => 1
  | .infoMultiple, _ :: keyed => keyedLength keyed
  | kind, payload => kind.fixedLength payload

theorem uncounted_le (kind : Kind) (payload : Bytes) : kind.uncounted payload ≤ payload.length := by
  unfold uncounted
  split
  · exact Nat.succ_le_succ (Nat.zero_le _)
  · exact Nat.zero_le _

/-- Not more is asked for than the fixed part. -/
theorem demand_le (kind : Kind) (payload : Bytes) :
    kind.demand payload + kind.uncounted payload ≤ kind.fixedLength payload := by
  cases kind with
  | infoMultiple =>
    cases payload with
    | nil => exact Nat.le_succ 1
    | cons mark keyed => exact Nat.le_of_eq (Nat.add_comm _ 1)
  | _ => exact Nat.le_refl _

/-- A payload that is too short has less than what is asked for. -/
theorem lt_demand {kind : Kind} {payload : Bytes} (h : payload.length < kind.fixedLength payload) :
    payload.length < kind.demand payload + kind.uncounted payload := by
  cases kind with
  | infoMultiple =>
    cases payload with
    | nil => exact Nat.one_pos
    | cons mark keyed =>
      rw [show Kind.infoMultiple.fixedLength (mark :: keyed) = 1 + keyedLength keyed from rfl,
        Nat.add_comm] at h
      exact h
  | _ => exact h

/-- The fixed part does not become shorter when more bytes follow. -/
theorem fixedLength_append (kind : Kind) (payload more : Bytes) :
    kind.fixedLength payload ≤ kind.fixedLength (payload ++ more) := by
  cases kind with
  | info | parameter => exact keyedLength_append payload more
  | infoMultiple =>
    apply Nat.add_le_add_left
    cases payload with
    | nil => exact keyedLength_append [] (more.drop 1)
    | cons mark keyed => exact keyedLength_append keyed more
  | _ => exact Nat.le_refl _

end Kind

namespace Message

/-- **What a payload that is too short is refused with.** -/
theorem read_short {kind : Kind} {payload : Bytes}
    (h : payload.length < kind.fixedLength payload) :
    read kind payload =
      .error (.notEnoughData (payload.length - kind.uncounted payload) (kind.demand payload)) := by
  have hneed {minimum : Nat} (f : Unit → Except Fault Message) (hlt : payload.length < minimum) :
      (need minimum payload >>= f) = .error (.notEnoughData payload.length minimum) := by
    rw [need_of_lt hlt]
    rfl
  have hkeyed {bytes : Bytes} (f : String × Bytes → Except Fault Message)
      (hlt : bytes.length < keyedLength bytes) :
      (readKeyed bytes >>= f) = .error (.notEnoughData bytes.length (keyedLength bytes)) := by
    rw [readKeyed_short hlt]
    rfl
  cases kind with
  | format => exact absurd h (Nat.not_lt_zero _)
  | info | parameter => exact hkeyed _ h
  | infoMultiple =>
    cases payload with
    | nil => rfl
    | cons mark keyed =>
      -- The mark is there, and the key is looked for behind it.
      have hlt : keyed.length < keyedLength keyed := by
        have := Kind.lt_demand h
        exact Nat.lt_of_succ_lt_succ this
      exact hkeyed _ hlt
  | flagBits | addLogged | removeLogged | data | logging | dropout | sync => exact hneed _ h

/-- **The report of a short payload is true but for the mark.** The two numbers are the length of
the payload and a larger one, with `Kind.uncounted` bytes taken off both. As long as an extension of
the payload is shorter than what is asked for, it is too short as well, and no extension that is
read as a message is. -/
theorem shortage_reported {kind : Kind} {payload : Bytes} {actual minimum : Nat}
    (h : read kind payload = .error (.notEnoughData actual minimum)) :
    actual + kind.uncounted payload = payload.length ∧ actual < minimum ∧
      (∀ more, (payload ++ more).length < minimum + kind.uncounted payload →
        ∃ actual' minimum', read kind (payload ++ more) =
          .error (.notEnoughData actual' minimum')) ∧
      ∀ more m, read kind (payload ++ more) = .ok m →
        minimum + kind.uncounted payload ≤ (payload ++ more).length := by
  have hlt := (verdict_read kind payload).short_iff.mp ⟨actual, minimum, h⟩
  rw [read_short hlt] at h
  simp only [Except.error.injEq, Fault.notEnoughData.injEq] at h
  obtain ⟨rfl, rfl⟩ := h
  have hcounted := kind.uncounted_le payload
  have hdemand := Kind.lt_demand hlt
  have hfixed (more : Bytes) :
      kind.demand payload + kind.uncounted payload ≤ kind.fixedLength (payload ++ more) :=
    Nat.le_trans (kind.demand_le payload) (kind.fixedLength_append payload more)
  have hagain (more : Bytes)
      (hmore : (payload ++ more).length < kind.demand payload + kind.uncounted payload) :
      ∃ actual' minimum', read kind (payload ++ more) =
        .error (.notEnoughData actual' minimum') :=
    (verdict_read kind _).short_iff.mpr (Nat.lt_of_lt_of_le hmore (hfixed more))
  refine ⟨by omega, by omega, hagain, ?_⟩
  intro more m hm
  apply Nat.le_of_not_lt
  intro hmore
  obtain ⟨_, _, herror⟩ := hagain more hmore
  rw [hm] at herror
  cases herror

/-- An `infoMultiple` message that announces a key of five bytes and has one of them is refused with
two bytes of six, and with the mark put back to both there are three bytes of seven: what is shorter
than that is refused too, and what is read is no shorter. -/
theorem shortage_reported_key :
    read .infoMultiple [0, 5, 97] = .error (.notEnoughData 2 6) ∧
      2 + Kind.uncounted .infoMultiple [0, 5, 97] = ([0, 5, 97] : Bytes).length ∧
      (∃ actual minimum, read .infoMultiple ([0, 5, 97] ++ [97, 97, 97]) =
        .error (.notEnoughData actual minimum)) ∧
      ∀ more m, read .infoMultiple ([0, 5, 97] ++ more) = .ok m →
        7 ≤ ([0, 5, 97] ++ more).length := by
  have h : read .infoMultiple [0, 5, 97] = .error (.notEnoughData 2 6) := rfl
  obtain ⟨hactual, -, hagain, hread⟩ := shortage_reported h
  exact ⟨h, hactual, hagain [97, 97, 97] (by decide), hread⟩

/-- So two bytes of six are reported where there are three, and with six of them there the report is
that one is missing; of the mark alone no byte is reported. -/
theorem mark_not_counted :
    read .infoMultiple [0] = .error (.notEnoughData 0 1) ∧ ([0] : Bytes).length = 1 ∧
      read .infoMultiple [0, 5, 97] = .error (.notEnoughData 2 6) ∧
      ([0, 5, 97] : Bytes).length = 3 ∧
      read .infoMultiple [0, 5, 97, 97, 97, 97] = .error (.notEnoughData 5 6) ∧
      ([0, 5, 97, 97, 97, 97] : Bytes).length = 6 :=
  ⟨rfl, rfl, rfl, rfl, rfl, rfl⟩

end Message

end Log
end FlightLink
