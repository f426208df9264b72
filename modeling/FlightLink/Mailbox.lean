/-
# Mailboxes

A mailbox keeps what is sent until it is received, in order. It may have room for
only so many; what is sent to a full one is lost, and so is everything once the
receiver is gone.

Key definitions: `Mailbox`, `Mailbox.offer`, `Mailbox.receive`, `Mailbox.drain`,
`Mailbox.disconnect`.
Key theorems: `offer_disconnected_iff`, `offer_of_gone`, `offer_of_room`, `offer_of_full`.
-/

namespace FlightLink

/-- A mailbox. -/
structure Mailbox (α : Type) where
  /-- Room for so many, or for any number. -/
  capacity : Option Nat
  /-- The receiver is still there. -/
  connected : Bool
  /-- What was sent and not yet received, oldest first. -/
  waiting : List α
  deriving DecidableEq, Repr

/-- What became of something sent to a mailbox. -/
inductive Delivery where
  | queued
  | full
  | disconnected
  deriving DecidableEq, Repr

namespace Mailbox

variable {α : Type}

/-- An empty mailbox with room for so many. -/
def bounded (capacity : Nat) : Mailbox α := ⟨some capacity, true, []⟩

/-- An empty mailbox with room for any number. -/
def unbounded : Mailbox α := ⟨none, true, []⟩

/-- There is no room for another one. -/
def isFull (box : Mailbox α) : Bool :=
  match box.capacity with
  | none => false
  | some capacity => capacity ≤ box.waiting.length

/-- Send something, unless there is no receiver or no room. -/
def offer (box : Mailbox α) (a : α) : Mailbox α × Delivery :=
  if !box.connected then (box, .disconnected)
  else if box.isFull then (box, .full)
  else ({ box with waiting := box.waiting ++ [a] }, .queued)

/-- Take out the oldest. -/
def receive (box : Mailbox α) : Option α × Mailbox α :=
  (box.waiting.head?, { box with waiting := box.waiting.tail })

/-- Take out everything. -/
def drain (box : Mailbox α) : List α × Mailbox α :=
  (box.waiting, { box with waiting := [] })

/-- The receiver goes away, and what was waiting with it. -/
def disconnect (box : Mailbox α) : Mailbox α :=
  { box with connected := false, waiting := [] }

theorem offer_disconnected_iff {box : Mailbox α} {a : α} :
    (box.offer a).2 = .disconnected ↔ box.connected = false := by
  cases hc : box.connected <;> cases hf : box.isFull <;> simp [offer, hc, hf]

/-- Sending neither brings nor takes a receiver. -/
@[simp] theorem connected_offer (box : Mailbox α) (a : α) :
    (box.offer a).1.connected = box.connected := by
  cases hc : box.connected <;> cases hf : box.isFull <;> simp [offer, hc, hf]

/-- Nothing is sent to a receiver that is gone. -/
theorem offer_of_gone {box : Mailbox α} {a : α} (h : box.connected = false) :
    box.offer a = (box, .disconnected) := by
  simp [offer, h]

theorem offer_of_room {box : Mailbox α} {a : α} {capacity : Nat} (h : box.connected = true)
    (hcapacity : box.capacity = some capacity) (hroom : box.waiting.length < capacity) :
    box.offer a = ({ box with waiting := box.waiting ++ [a] }, .queued) := by
  simp [offer, isFull, h, hcapacity, hroom]

theorem offer_of_full {box : Mailbox α} {a : α} {capacity : Nat} (h : box.connected = true)
    (hcapacity : box.capacity = some capacity) (hfull : capacity ≤ box.waiting.length) :
    box.offer a = (box, .full) := by
  simp [offer, isFull, h, hcapacity, hfull]

end Mailbox

end FlightLink
