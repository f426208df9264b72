/-
# Bounded channels

The mailbox of a subscription is a bounded channel of a library. All that is used of a channel is
what is documented of it (`Channel.IsFifo`): with a receiver it holds what was sent and not yet
received, in order, takes more only while it holds fewer than its capacity, and tells a sender when
the receiver is gone. A mailbox is such a channel (`Mailbox.isFifo`), and any other one answers the
same calls alike (`Channel.IsFifo.offer`).

Key definitions: `Channel`, `Channel.IsFifo`, `Channel.Call`, `Channel.after`, `Channel.received`,
`Channel.Mirrors`.
Key theorems: `Channel.IsFifo.offer`, `Channel.IsFifo.receive_connected`, `Mailbox.isFifo`.
-/
import FlightLink.Mailbox

namespace FlightLink

/-- The operations of bounded channels with states of type `C`, none of which waits. -/
structure Channel (C α : Type) where
  /-- A new channel of this capacity. -/
  bounded : Nat → C
  trySend : C → α → C × Delivery
  tryReceive : C → Option α × C
  /-- The receiver goes away. -/
  dropReceiver : C → C

namespace Channel

variable {C α : Type}

/-- **What bounded channels are documented to do**, where `Holds capacity x q` if the channel `x`
has this capacity and a receiver, for whom `q` waits, and `Gone x` if the receiver is gone. -/
structure IsFifo (ch : Channel C α) (Holds : Nat → C → List α → Prop) (Gone : C → Prop) : Prop where
  bounded : ∀ capacity, Holds capacity (ch.bounded capacity) []
  room : ∀ {capacity x q}, Holds capacity x q → q.length < capacity → ∀ a,
    (ch.trySend x a).2 = .queued ∧ Holds capacity (ch.trySend x a).1 (q ++ [a])
  full : ∀ {capacity x q}, Holds capacity x q → capacity ≤ q.length → ∀ a,
    (ch.trySend x a).2 = .full ∧ Holds capacity (ch.trySend x a).1 q
  receive : ∀ {capacity x q}, Holds capacity x q →
    (ch.tryReceive x).1 = q.head? ∧ Holds capacity (ch.tryReceive x).2 q.tail
  drop : ∀ {capacity x q}, Holds capacity x q → Gone (ch.dropReceiver x)
  gone : ∀ {x}, Gone x → ∀ a, (ch.trySend x a).2 = .disconnected ∧ Gone (ch.trySend x a).1

/-! ### Calls -/

/-- What is done to a channel. -/
inductive Call (α : Type) where
  | send (a : α)
  | receive
  /-- The receiver goes away. -/
  | drop
  deriving DecidableEq, Repr

/-- The channel after a call. -/
def call (ch : Channel C α) (x : C) : Call α → C
  | .send a => (ch.trySend x a).1
  | .receive => (ch.tryReceive x).2
  | .drop => ch.dropReceiver x

/-- What a call takes out. -/
def taken (ch : Channel C α) (x : C) : Call α → List α
  | .receive => (ch.tryReceive x).1.toList
  | _ => []

/-- The channel after calls. -/
def after (ch : Channel C α) : C → List (Call α) → C
  | x, [] => x
  | x, c :: calls => ch.after (ch.call x c) calls

/-- What calls receive. -/
def received (ch : Channel C α) : C → List (Call α) → List α
  | _, [] => []
  | x, c :: calls => ch.taken x c ++ ch.received (ch.call x c) calls

theorem after_append (ch : Channel C α) : ∀ (x : C) (first later : List (Call α)),
    ch.after x (first ++ later) = ch.after (ch.after x first) later
  | _, [], _ => rfl
  | x, c :: first, later => ch.after_append (ch.call x c) first later

theorem received_append (ch : Channel C α) : ∀ (x : C) (first later : List (Call α)),
    ch.received x (first ++ later) = ch.received x first ++ ch.received (ch.after x first) later
  | _, [], _ => rfl
  | x, c :: first, later => by
    have ih := ch.received_append (ch.call x c) first later
    show ch.taken x c ++ ch.received (ch.call x c) (first ++ later) =
      ch.taken x c ++ ch.received (ch.call x c) first ++
        ch.received (ch.after (ch.call x c) first) later
    rw [ih, List.append_assoc]

/-! ### Channels and mailboxes -/

/-- The channel is in the state of the mailbox: their capacity is the same, both have a receiver or
both have none, and with a receiver the same waits in both. -/
structure Mirrors (Holds : Nat → C → List α → Prop) (Gone : C → Prop) (capacity : Nat) (x : C)
    (box : Mailbox α) : Prop where
  limit : box.capacity = some capacity
  /-- No more waits than there is room for. -/
  bound : box.waiting.length ≤ capacity
  holds : box.connected = true → Holds capacity x box.waiting
  gone : box.connected = false → Gone x

section Mirroring

variable {ch : Channel C α} {Holds : Nat → C → List α → Prop} {Gone : C → Prop}
  {capacity : Nat} {x : C} {box : Mailbox α}

/-- A receiver that is gone receives nothing. -/
theorem Mirrors.receive_gone (h : Mirrors Holds Gone capacity x box) (hc : box.connected = false) :
    Mirrors Holds Gone capacity x box.receive.2 := by
  refine ⟨h.limit, ?_, fun hs => (nomatch hc.symm.trans hs), fun _ => h.gone hc⟩
  exact Nat.le_trans (List.tail_sublist _).length_le h.bound

/-- Nor does it go away again. -/
theorem Mirrors.disconnect_gone (h : Mirrors Holds Gone capacity x box)
    (hc : box.connected = false) : Mirrors Holds Gone capacity x box.disconnect :=
  ⟨h.limit, Nat.zero_le _, fun hs => (nomatch hs), fun _ => h.gone hc⟩

/-- With a receiver, what is sent waits if it finds room. -/
theorem Mirrors.waiting_offer (h : Mirrors Holds Gone capacity x box) (hc : box.connected = true)
    (a : α) : (box.offer a).1.waiting =
      box.waiting ++ if box.waiting.length < capacity then [a] else [] := by
  by_cases hroom : box.waiting.length < capacity
  · rw [Mailbox.offer_of_room hc h.limit hroom, if_pos hroom]
  · rw [Mailbox.offer_of_full hc h.limit (Nat.le_of_not_lt hroom), if_neg hroom, List.append_nil]

namespace IsFifo

variable (hch : ch.IsFifo Holds Gone)
include hch

theorem new (capacity : Nat) :
    Mirrors Holds Gone capacity (ch.bounded capacity) (.bounded capacity) :=
  ⟨rfl, Nat.zero_le _, fun _ => hch.bounded capacity, fun h => (nomatch h)⟩

/-- **A channel answers a sender as the mailbox does.** -/
theorem offer (h : Mirrors Holds Gone capacity x box) (a : α) :
    (ch.trySend x a).2 = (box.offer a).2 ∧
      Mirrors Holds Gone capacity (ch.trySend x a).1 (box.offer a).1 := by
  cases hc : box.connected with
  | false =>
    obtain ⟨hanswer, hgone⟩ := hch.gone (h.gone hc) a
    rw [Mailbox.offer_of_gone hc]
    exact ⟨hanswer, h.limit, h.bound, fun hs => (nomatch hc.symm.trans hs), fun _ => hgone⟩
  | true =>
    have hq := h.holds hc
    by_cases hroom : box.waiting.length < capacity
    · obtain ⟨hanswer, hholds⟩ := hch.room hq hroom a
      rw [Mailbox.offer_of_room hc h.limit hroom]
      refine ⟨hanswer, h.limit, ?_, fun _ => hholds, fun hs => (nomatch hc.symm.trans hs)⟩
      show (box.waiting ++ [a]).length ≤ capacity
      rw [List.length_append, List.length_singleton]
      exact hroom
    · obtain ⟨hanswer, hholds⟩ := hch.full hq (Nat.le_of_not_lt hroom) a
      rw [Mailbox.offer_of_full hc h.limit (Nat.le_of_not_lt hroom)]
      exact ⟨hanswer, h.limit, h.bound, fun _ => hholds, fun hs => (nomatch hc.symm.trans hs)⟩

/-- **Received is what has waited longest.** -/
theorem receive_connected (h : Mirrors Holds Gone capacity x box) (hc : box.connected = true) :
    (ch.tryReceive x).1.toList ++ box.receive.2.waiting = box.waiting ∧
      Mirrors Holds Gone capacity (ch.tryReceive x).2 box.receive.2 := by
  obtain ⟨hgot, hholds⟩ := hch.receive (h.holds hc)
  refine ⟨?_, h.limit, ?_, fun _ => hholds, fun hs => (nomatch hc.symm.trans hs)⟩
  · rw [hgot]
    show box.waiting.head?.toList ++ box.waiting.tail = box.waiting
    cases box.waiting <;> rfl
  · exact Nat.le_trans (List.tail_sublist _).length_le h.bound

theorem disconnect_connected (h : Mirrors Holds Gone capacity x box) (hc : box.connected = true) :
    Mirrors Holds Gone capacity (ch.dropReceiver x) box.disconnect :=
  ⟨h.limit, Nat.zero_le _, fun hs => (nomatch hs), fun _ => hch.drop (h.holds hc)⟩

end IsFifo

end Mirroring

end Channel

/-! ### Mailboxes are bounded channels -/

namespace Mailbox

variable {α : Type}

/-- Mailboxes as channels. -/
def channel : Channel (Mailbox α) α := ⟨bounded, offer, receive, disconnect⟩

/-- A mailbox of this capacity has a receiver, and this waits in it. -/
def Holds (capacity : Nat) (box : Mailbox α) (q : List α) : Prop := box = ⟨some capacity, true, q⟩

/-- **A mailbox does what bounded channels are documented to do.** -/
theorem isFifo :
    (channel : Channel (Mailbox α) α).IsFifo Holds fun box => box.connected = false where
  bounded _ := rfl
  room := by
    rintro capacity _ q rfl hroom a
    have hoffer : offer ⟨some capacity, true, q⟩ a = (⟨some capacity, true, q ++ [a]⟩, .queued) :=
      offer_of_room rfl rfl hroom
    exact ⟨congrArg Prod.snd hoffer, congrArg Prod.fst hoffer⟩
  full := by
    rintro capacity _ q rfl hfull a
    have hoffer : offer ⟨some capacity, true, q⟩ a = (⟨some capacity, true, q⟩, .full) :=
      offer_of_full rfl rfl hfull
    exact ⟨congrArg Prod.snd hoffer, congrArg Prod.fst hoffer⟩
  receive := by
    rintro capacity _ q rfl
    exact ⟨rfl, rfl⟩
  drop _ := rfl
  gone hgone a := ⟨offer_disconnected_iff.mpr hgone, (connected_offer _ a).trans hgone⟩

end Mailbox

end FlightLink
