/-
# Who gets which message

Each kind of message has at most one subscriber; a new one takes the place of the
old one. A subscriber is a handler or a mailbox. A handler is called with the
message, a typed one only if the message is of its kind. A mailbox whose receiver is
gone is found out when the next message reaches it, and its subscription ends.
Besides, one handler may look at every chunk before its bytes are read.

A handler may change the registry when it is called, and remember things; handlers have
their memory in common (`Reactive`). Its changes are made when it has returned, so they hold
from the next message on, and those of the chunk handler from the first message of the chunk on.

Key definitions: `Registry`, `Change`, `Reactive`, `Registry.call`, `Registry.dispatch`,
`Registry.lookAt`.
-/
import FlightLink.Log.Chunk
import FlightLink.Log.Message
import FlightLink.Mailbox

namespace FlightLink
namespace Log

/-- A change to the registry. -/
inductive Change (H : Type) where
  | subscribe (kind : Kind) (handler : H)
  | subscribeTyped (kind : Kind) (handler : H)
  | openMailbox (kind : Kind) (capacity : Nat)
  | unsubscribe (kind : Kind)
  /-- Lets the handler look at chunks. -/
  | onChunk (handler : H)
  /-- Lets nobody look at chunks. -/
  | clearChunkHandler
  deriving DecidableEq, Repr

/-- What a handler is called with. -/
inductive Cue where
  | message (m : Message)
  | chunk (chunk : Chunk)
  deriving DecidableEq, Repr

/-- Handlers with a memory in common. A handler answers a call with changes to the registry and
leaves the memory as it is then. It sees which kinds have a subscriber when it is called, and so
knows what each of its own changes will find. -/
class Reactive (H : Type) where
  Memory : Type
  /-- The memory before the first call. -/
  initial : Memory
  react : H → Cue → (Kind → Bool) → Memory → List (Change H) × Memory

/-- Who gets the messages of a kind. -/
inductive Subscriber (H : Type) where
  | handler (h : H)
  /-- A handler that is called with messages of one kind only. -/
  | typed (kind : Kind) (h : H)
  /-- The mailbox of this number. -/
  | mailbox (number : Nat)
  deriving DecidableEq, Repr

/-- The subscribers of a log. -/
structure Registry (H : Type) [Reactive H] where
  subscriber : Kind → Option (Subscriber H)
  /-- All mailboxes ever made, by number. -/
  mailboxes : List (Mailbox Message)
  /-- The handler that looks at chunks. -/
  chunkHandler : Option H
  /-- What the handlers remember. -/
  memory : Reactive.Memory H

/-- What a message met. -/
inductive Dispatch (H : Type) where
  /-- A handler was called with it. -/
  | called (h : H)
  /-- It was sent to a mailbox. -/
  | posted (number : Nat)
  /-- The subscriber is a handler of another kind, which was not called. -/
  | unmatched
  | noSubscriber
  deriving DecidableEq, Repr

namespace Registry

variable {H : Type} [Reactive H]

/-- Nobody is subscribed. -/
def empty : Registry H := ⟨fun _ => none, [], none, Reactive.initial⟩

/-- Make `subscriber` the only one of its kind, or leave the kind without. -/
def assign (r : Registry H) (kind : Kind) (subscriber : Option (Subscriber H)) : Registry H :=
  { r with subscriber := fun k => if k = kind then subscriber else r.subscriber k }

/-- Let a handler have the messages of a kind. -/
def subscribe (r : Registry H) (kind : Kind) (h : H) : Registry H :=
  r.assign kind (some (.handler h))

/-- Let a handler of messages of one kind have them. -/
def subscribeTyped (r : Registry H) (kind : Kind) (h : H) : Registry H :=
  r.assign kind (some (.typed kind h))

/-- Let nobody have the messages of a kind. -/
def clear (r : Registry H) (kind : Kind) : Registry H := r.assign kind none

/-- Somebody gets the messages of the kind. -/
def isSubscribed (r : Registry H) (kind : Kind) : Bool := (r.subscriber kind).isSome

/-- Let nobody have the messages of a kind, and tell whether somebody had them. -/
def unsubscribe (r : Registry H) (kind : Kind) : Registry H × Bool :=
  (r.clear kind, r.isSubscribed kind)

/-- The kinds that have a subscriber. -/
def subscribedKinds (r : Registry H) : List Kind := Kind.all.filter r.isSubscribed

/-- Let a new mailbox with room for so many have the messages of a kind. Its number is
how many there were before. -/
def openMailbox (r : Registry H) (kind : Kind) (capacity : Nat) : Registry H × Nat :=
  let number := r.mailboxes.length
  ({ r.assign kind (some (.mailbox number)) with
      mailboxes := r.mailboxes ++ [.bounded capacity] }, number)

/-- What waits in a mailbox. -/
def waiting (r : Registry H) (number : Nat) : List Message :=
  match r.mailboxes[number]? with
  | some box => box.waiting
  | none => []

/-- Do something to a mailbox. -/
def updateMailbox (r : Registry H) (number : Nat) (f : Mailbox Message → Mailbox Message) :
    Registry H :=
  { r with mailboxes := r.mailboxes.modify number f }

/-- Take everything out of a mailbox. -/
def drainMailbox (r : Registry H) (number : Nat) : List Message × Registry H :=
  (r.waiting number, r.updateMailbox number fun box => box.drain.2)

/-- The receiver of a mailbox goes away. -/
def closeMailbox (r : Registry H) (number : Nat) : Registry H :=
  r.updateMailbox number Mailbox.disconnect

def apply (r : Registry H) : Change H → Registry H
  | .subscribe kind h => r.subscribe kind h
  | .subscribeTyped kind h => r.subscribeTyped kind h
  | .openMailbox kind capacity => (r.openMailbox kind capacity).1
  | .unsubscribe kind => r.clear kind
  | .onChunk h => { r with chunkHandler := some h }
  | .clearChunkHandler => { r with chunkHandler := none }

/-- Call a handler, and make the changes that it answers with. -/
def call (r : Registry H) (h : H) (cue : Cue) : Registry H :=
  let answer := Reactive.react h cue r.isSubscribed r.memory
  answer.1.foldl apply { r with memory := answer.2 }

/-- Send a message to a mailbox; without receiver the subscription ends. -/
def post (r : Registry H) (number : Nat) (m : Message) : Registry H :=
  match r.mailboxes[number]? with
  | none => r
  | some box =>
    match box.offer m with
    | (_, .disconnected) => r.clear m.kind
    | (next, _) => r.updateMailbox number fun _ => next

/-- Give a message to the subscriber of its kind. -/
def dispatch (r : Registry H) (m : Message) : Registry H × Dispatch H :=
  match r.subscriber m.kind with
  | none => (r, .noSubscriber)
  | some (.handler h) => (r.call h (.message m), .called h)
  | some (.typed kind h) =>
    if m.kind = kind then (r.call h (.message m), .called h) else (r, .unmatched)
  | some (.mailbox number) => (r.post number m, .posted number)

/-- Let the handler for chunks look at one, and tell which one did. -/
def lookAt (r : Registry H) (chunk : Chunk) : Registry H × Option H :=
  match r.chunkHandler with
  | none => (r, none)
  | some h => (r.call h (.chunk chunk), some h)

@[simp] theorem subscriber_assign (r : Registry H) (kind k : Kind)
    (subscriber : Option (Subscriber H)) :
    (r.assign kind subscriber).subscriber k = if k = kind then subscriber else r.subscriber k := rfl

end Registry

/-- The message met a subscriber. -/
def Dispatch.delivered {H : Type} : Dispatch H → Bool
  | .noSubscriber => false
  | _ => true

end Log
end FlightLink
