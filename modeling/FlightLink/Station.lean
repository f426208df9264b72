/-
# A session in its surroundings

A station is a session with a clock and a mailbox for what goes out. A message that
finds the mailbox full or closed is lost, which only the program's own log tells.

Key definitions: `Station`, `Station.settle`, `Observation`.
Key theorems: `Station.settle_outbox`, `Station.settle_unbounded`.
-/
import FlightLink.Mailbox
import FlightLink.Session

namespace FlightLink

/-- A session with a clock and a mailbox for what goes out. -/
structure Station (H : Type) [Log.Reactive H] where
  clock : Clock.Manual
  outbox : Mailbox Wire.Outbound
  session : Session H

/-- What can be seen of a station besides its answers and what it sends. -/
inductive Observation (H : Type) where
  | effect (e : Effect H)
  /-- A message found the mailbox full or closed. -/
  | undelivered (m : Wire.Outbound)
  deriving Repr

/-- Observers and handlers are told of it: always of their calls, and of what happened
to clocks and streams if there is an observer for that. -/
def Observation.told {H : Type} (observed : Bool) : Observation H → Bool
  | effect (.clock (.event _)) => observed
  | effect (.log (.found _ _)) => observed
  | effect (.log (.handlerCalled _ _)) => true
  | effect (.log (.chunkHandlerCalled _ _)) => true
  | _ => false

/-- An observation as a log record. -/
def Observation.record? {H : Type} (observed : Bool) : Observation H → Option Trace.Record
  | effect e => e.record? observed
  | undelivered m =>
    some ⟨.debug, "outbound channel closed or full, dropping message",
      [("msg_id", .count m.id.toNat)]⟩

namespace Station

variable {H : Type}

/-- Send what effects send, in order; what remains is to be seen. -/
def settle :
    Mailbox Wire.Outbound → List (Effect H) → Mailbox Wire.Outbound × List (Observation H)
  | box, [] => (box, [])
  | box, e :: effects =>
    match e.outgoing? with
    | none =>
      let (box, seen) := settle box effects
      (box, .effect e :: seen)
    | some m =>
      let (next, delivery) := box.offer m
      let (box, seen) := settle next effects
      (box, if delivery = .queued then seen else .undelivered m :: seen)

/-- The mailbox is offered what effects send, in order, whatever became of it before. -/
theorem settle_outbox (box : Mailbox Wire.Outbound) (effects : List (Effect H)) :
    (settle box effects).1 =
      (effects.filterMap Effect.outgoing?).foldl (fun box m => (box.offer m).1) box := by
  induction effects generalizing box with
  | nil => rfl
  | cons e effects ih =>
    unfold settle
    cases he : e.outgoing? with
    | none =>
      rw [List.filterMap_cons_none he]
      exact ih box
    | some m =>
      rw [List.filterMap_cons_some he]
      exact ih (box.offer m).1

/-- A mailbox that has its receiver and room for any number keeps all that is sent. -/
theorem settle_unbounded {box : Mailbox Wire.Outbound} (hc : box.connected = true)
    (hr : box.capacity = none) (effects : List (Effect H)) :
    settle box effects =
      ({ box with waiting := box.waiting ++ effects.filterMap Effect.outgoing? },
        (effects.filter (·.outgoing?.isNone)).map .effect) := by
  induction effects generalizing box with
  | nil => simp [settle]
  | cons e effects ih =>
    unfold settle
    cases he : e.outgoing? with
    | none =>
      rw [ih hc hr, List.filterMap_cons_none he, List.filter_cons_of_pos (by simp [he])]
      rfl
    | some m =>
      have hoffer : box.offer m = ({ box with waiting := box.waiting ++ [m] }, .queued) := by
        simp [Mailbox.offer, Mailbox.isFull, hc, hr]
      have hrest := @ih { box with waiting := box.waiting ++ [m] } hc hr
      simp only [hoffer]
      rw [hrest, List.filterMap_cons_some he, List.filter_cons_of_neg (by simp [he])]
      simp [List.append_assoc]

variable [Log.Reactive H]

/-- The station after its session did something. -/
def carry (s : Station H) (did : Session H × List (Effect H)) :
    Station H × List (Observation H) :=
  let (outbox, seen) := settle s.outbox did.2
  ({ s with outbox, session := did.1 }, seen)

def handle (s : Station H) (sender : Wire.Identity) (m : Wire.Inbound) :
    Station H × List (Observation H) :=
  s.carry (s.session.handle s.clock sender m)

def work (s : Station H) : Station H × List (Observation H) := s.carry (s.session.work s.clock)

/-- Take in a chunk of the log without acknowledging it. -/
def ingest (s : Station H) (chunk : Log.Chunk) :
    Station H × List (Observation H) :=
  s.carry (s.session.ingest chunk)

/-- Give a log message to its subscriber, and tell whether there is one. -/
def dispatch (s : Station H) (m : Log.Message) :
    Station H × List (Observation H) × Bool :=
  let (registry, effects, delivered) := Log.Receiver.dispatch s.session.log.registry m
  let log := s.session.log.mapRegistry fun _ => registry
  let (s, seen) := s.carry ({ s.session with log }, effects.map .log)
  (s, seen, delivered)

def onSystemTime (s : Station H) (m : Wire.SystemTime) : Station H × List (Observation H) :=
  s.carry (s.session.onClock (·.onSystemTime s.clock m))

def onTimesync (s : Station H) (m : Wire.Timesync) : Station H × List (Observation H) :=
  s.carry (s.session.onClock (·.onTimesync s.clock.steady m))

/-- Change the clock engine by hand. -/
def mapSynchronizer (s : Station H) (f : Clock.Synchronizer → Clock.Synchronizer) : Station H :=
  { s with session := { s.session with clock := f s.session.clock } }

/-- Change the log engine by hand. -/
def mapReceiver (s : Station H) (f : Log.Receiver H → Log.Receiver H) : Station H :=
  { s with session := { s.session with log := f s.session.log } }

/-- Change the clock. -/
def mapClock (s : Station H) (f : Clock.Manual → Clock.Manual) : Station H :=
  { s with clock := f s.clock }

/-- Take out everything that waits to go out. -/
def drain (s : Station H) : List Wire.Outbound × Station H :=
  let (messages, outbox) := s.outbox.drain
  (messages, { s with outbox })

/-- Nobody takes out messages any more. -/
def close (s : Station H) : Station H := { s with outbox := s.outbox.disconnect }

end Station

end FlightLink
