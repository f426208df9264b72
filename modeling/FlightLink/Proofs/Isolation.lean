/-
# The two engines of a session do not touch each other

A station gets time messages and log chunks in any order, from any senders, between calls for work
and changes of its link and its clock (`Stimulus`). Each engine of its session does just what it
would do alone: the clock engine given only the time messages, the calls for work and the changes,
the log engine given only the chunks, whatever its handlers change and remember. What goes out is
what the clock engine sends by itself, and between these messages one acknowledgement for every
chunk whose sender waits for one, whatever became of the chunk.

One stimulus is followed through the session (`Session.respond`) with its effects; which engine an
effect belongs to can be read off it, so a whole run is projected effect by effect
(`Session.clock_effects`, `Session.log_effects`, `Session.acks_effects`). A mailbox with room for
any number then keeps all that is sent (`Station.settle_unbounded`).

Key definitions: `Stimulus`, `Session.respond`, `Station.undergo`, `Station.after`,
`Station.seen`, `Stimulus.moments`, `Stimulus.chunk?`, `Stimulus.ack?`.
Key theorems: `Session.clock_effects`, `Session.log_effects`,
`Session.acks_effects`, `Station.isolation`.
-/
import FlightLink.Log.Listener
import FlightLink.Proofs.Clock.Run
import FlightLink.Station
import Mathlib.Data.List.Basic

namespace FlightLink

/-! ### The engines alone -/

/-- What a synchronizer does when calls are made. -/
def Clock.Synchronizer.effects (s : Clock.Synchronizer) : List Clock.Moment → List Clock.Effect
  | [] => []
  | t :: ts => (s.perform t).2 ++ (s.perform t).1.effects ts

/-- The message that an effect of a synchronizer sends. -/
def Clock.Effect.outgoing? : Clock.Effect → Option Wire.Outbound
  | send m => some m
  | _ => none

namespace Log.Receiver

variable {H : Type} [Reactive H]

/-- The receiver after chunks. -/
def after (r : Receiver H) : List Chunk → Receiver H
  | [] => r
  | chunk :: chunks => (r.ingest chunk).1.after chunks

/-- What a receiver does when chunks come in. -/
def effects (r : Receiver H) : List Chunk → List (Log.Effect H)
  | [] => []
  | chunk :: chunks => (r.ingest chunk).2 ++ (r.ingest chunk).1.effects chunks

end Log.Receiver

/-! ### A station and what happens to it -/

/-- What can happen to a station. -/
inductive Stimulus where
  /-- A message comes in. -/
  | handle (sender : Wire.Identity) (m : Wire.Inbound)
  | work
  | setLink (active : Bool)
  /-- The clock goes on, is set or is turned back. -/
  | setClock (clock : Clock.Manual)
  deriving DecidableEq, Repr

namespace Stimulus

/-- The clock after it. -/
def clockAfter (clock : Clock.Manual) : Stimulus → Clock.Manual
  | setClock next => next
  | _ => clock

/-- The call that it is to the clock engine. -/
def call? : Stimulus → Option Clock.Call
  | handle _ (.systemTime m) => some (.systemTime m)
  | handle _ (.timesync m) => some (.timesync m)
  | handle _ (.logData _) => none
  | handle _ (.logDataAcked _) => none
  | work => some .work
  | setLink active => some (.setLink active)
  | setClock _ => none

/-- The chunk that it brings the log engine. -/
def chunk? : Stimulus → Option Log.Chunk
  | handle sender (.logData m) => some (.ofLogData sender m)
  | handle sender (.logDataAcked m) => some (.ofLogData sender m)
  | _ => none

/-- The acknowledgement that its sender waits for. -/
def ack? : Stimulus → Option Wire.LogAck
  | handle sender (.logDataAcked m) => some ⟨m.sequence, sender⟩
  | _ => none

/-- It is log traffic. All else concerns the clock engine. -/
def isLog (x : Stimulus) : Bool := x.chunk?.isSome

/-- The calls of a run to the clock engine, each at what the clock shows by then. -/
def moments (clock : Clock.Manual) : List Stimulus → List Clock.Moment
  | [] => []
  | x :: run => (x.call?.map (Clock.Moment.mk clock)).toList ++ moments (x.clockAfter clock) run

end Stimulus

/-! ### Which engine an effect belongs to -/

section Projections

variable {H : Type}

namespace Effect

/-- What the clock engine did. -/
def clock? : Effect H → Option Clock.Effect
  | clock e => some e
  | _ => none

/-- What the log engine did. -/
def log? : Effect H → Option (Log.Effect H)
  | log e => some e
  | _ => none

/-- The acknowledgement that is sent. -/
def ack? : Effect H → Option Wire.LogAck
  | acknowledge ack => some ack
  | _ => none

end Effect

/-- What the clock engine of the session did, messages that were sent apart. -/
def Observation.clock? : Observation H → Option Clock.Effect
  | effect e => e.clock?
  | undelivered _ => none

/-- What the log engine of the session did. -/
def Observation.log? : Observation H → Option (Log.Effect H)
  | effect e => e.log?
  | undelivered _ => none

/-- The acknowledgement, if the message is one. -/
def Wire.Outbound.ack? : Wire.Outbound → Option Wire.LogAck
  | logAck ack => some ack
  | _ => none

variable [Log.Reactive H]

/-- The effects of the clock engine, seen through a filter. -/
theorem Session.filterMap_onClock {α : Type} (s : Session H) (g : Effect H → Option α)
    (f : Clock.Synchronizer → Clock.Synchronizer × List Clock.Effect) :
    (s.onClock f).2.filterMap g = (f s.clock).2.filterMap fun e => g (.clock e) :=
  List.filterMap_map

/-- A filter of other effects sees none of them. -/
theorem Session.filterMap_onClock_eq_nil {α : Type} (s : Session H) {g : Effect H → Option α}
    (hg : ∀ e, g (.clock e) = none)
    (f : Clock.Synchronizer → Clock.Synchronizer × List Clock.Effect) :
    (s.onClock f).2.filterMap g = [] := by
  rw [s.filterMap_onClock]
  exact List.filterMap_eq_nil_iff.mpr fun e _ => hg e

/-- What the clock engine does in a session, it does alone when the call is made. -/
theorem Session.clock_onClock (s : Session H) (clock : Clock.Manual) {call : Clock.Call}
    (f : Clock.Synchronizer → Clock.Synchronizer × List Clock.Effect)
    (hf : f s.clock = s.clock.perform ⟨clock, call⟩) :
    (s.onClock f).1.clock = s.clock.after [⟨clock, call⟩] ∧
      (s.onClock f).2.filterMap Effect.clock? = s.clock.effects [⟨clock, call⟩] := by
  constructor
  · exact congrArg Prod.fst hf
  · rw [s.filterMap_onClock, hf]
    exact List.filterMap_some.trans (List.append_nil _).symm

end Projections

variable {H : Type} [Log.Reactive H]

/-- What a session does when something happens to its station. -/
def Session.respond (s : Session H) (clock : Clock.Manual) : Stimulus → Session H × List (Effect H)
  | .handle sender m => s.handle clock sender m
  | .work => s.work clock
  | .setLink active => ({ s with clock := s.clock.setLink active }, [])
  | .setClock _ => (s, [])

namespace Station

/-- Something happens to a station. -/
def undergo (s : Station H) : Stimulus → Station H × List (Observation H)
  | .handle sender m => s.handle sender m
  | .work => s.work
  | .setLink active => (s.mapSynchronizer (·.setLink active), [])
  | .setClock clock => (s.mapClock fun _ => clock, [])

/-- The station after a run. -/
def after (s : Station H) : List Stimulus → Station H
  | [] => s
  | x :: run => (s.undergo x).1.after run

/-- What is to be seen during a run. -/
def seen (s : Station H) : List Stimulus → List (Observation H)
  | [] => []
  | x :: run => (s.undergo x).2 ++ (s.undergo x).1.seen run

end Station

/-! ### One stimulus -/

namespace Clock.Synchronizer

theorem after_append (s : Synchronizer) (ts us : List Moment) :
    s.after (ts ++ us) = (s.after ts).after us := by
  induction ts generalizing s with
  | nil => rfl
  | cons t ts ih => exact ih _

theorem effects_append (s : Synchronizer) (ts us : List Moment) :
    s.effects (ts ++ us) = s.effects ts ++ (s.after ts).effects us := by
  induction ts generalizing s with
  | nil => rfl
  | cons t ts ih =>
    rw [List.cons_append, effects, ih, effects, List.append_assoc]
    rfl

end Clock.Synchronizer

namespace Session

variable (s : Session H) (clock : Clock.Manual) (x : Stimulus)

/-- The effects of the log engine and the acknowledgement, seen through a filter. -/
theorem filterMap_receive {α : Type} (g : Effect H → Option α) (chunk : Log.Chunk)
    (reliable : Bool) :
    (s.receive chunk reliable).2.filterMap g =
      ((s.log.ingest chunk).2.filterMap fun e => g (.log e)) ++
        (chunk.ack? reliable).toList.filterMap fun ack => g (.acknowledge ack) := by
  unfold receive ingest
  rw [List.filterMap_append, List.filterMap_map, List.filterMap_map]
  rfl

theorem clock_receive_effects (chunk : Log.Chunk) (reliable : Bool) :
    (s.receive chunk reliable).2.filterMap Effect.clock? = [] := by
  rw [filterMap_receive, List.append_eq_nil_iff]
  exact ⟨List.filterMap_eq_nil_iff.mpr fun _ _ => rfl,
    List.filterMap_eq_nil_iff.mpr fun _ _ => rfl⟩

/-- A call does in the session what it does to the clock engine alone, and no other stimulus
touches this engine. -/
theorem clock_respond :
    (s.respond clock x).1.clock =
        s.clock.after (x.call?.map (Clock.Moment.mk clock)).toList ∧
      (s.respond clock x).2.filterMap Effect.clock? =
        s.clock.effects (x.call?.map (Clock.Moment.mk clock)).toList := by
  cases x with
  | handle sender m =>
    cases m with
    | systemTime m => exact s.clock_onClock clock (·.onSystemTime clock m) rfl
    | timesync m => exact s.clock_onClock clock (·.onTimesync clock.steady m) rfl
    | logData m => exact ⟨rfl, s.clock_receive_effects (.ofLogData sender m) false⟩
    | logDataAcked m => exact ⟨rfl, s.clock_receive_effects (.ofLogData sender m) true⟩
  | work => exact s.clock_onClock clock (·.work clock.steady) rfl
  | setLink active => exact ⟨rfl, rfl⟩
  | setClock next => exact ⟨rfl, rfl⟩

/-- The log engine takes in a chunk as it does alone. -/
theorem log_receive (chunk : Log.Chunk) (reliable : Bool) :
    (s.receive chunk reliable).1.log = s.log.after [chunk] ∧
      (s.receive chunk reliable).2.filterMap Effect.log? = s.log.effects [chunk] := by
  refine ⟨rfl, ?_⟩
  have hacks : ∀ acks : List Wire.LogAck,
      (acks.filterMap fun ack => (Effect.acknowledge (H := H) ack).log?) = [] :=
    fun _ => List.filterMap_eq_nil_iff.mpr fun _ _ => rfl
  rw [filterMap_receive, hacks]
  exact congrArg (· ++ []) List.filterMap_some

/-- A chunk does in the session what it does to the log engine alone, and no other stimulus
touches this engine. -/
theorem log_respond :
    (s.respond clock x).1.log = s.log.after x.chunk?.toList ∧
      (s.respond clock x).2.filterMap Effect.log? = s.log.effects x.chunk?.toList := by
  have hclock := s.filterMap_onClock_eq_nil (g := Effect.log?) fun _ => rfl
  cases x with
  | handle sender m =>
    cases m with
    | systemTime m => exact ⟨rfl, hclock (·.onSystemTime clock m)⟩
    | timesync m => exact ⟨rfl, hclock (·.onTimesync clock.steady m)⟩
    | logData m => exact s.log_receive (.ofLogData sender m) false
    | logDataAcked m => exact s.log_receive (.ofLogData sender m) true
  | work => exact ⟨rfl, hclock (·.work clock.steady)⟩
  | setLink active => exact ⟨rfl, rfl⟩
  | setClock next => exact ⟨rfl, rfl⟩

/-- Whatever becomes of a chunk, it is acknowledged if its sender waits for that. -/
theorem acks_receive (chunk : Log.Chunk) (reliable : Bool) :
    (s.receive chunk reliable).2.filterMap Effect.ack? = (chunk.ack? reliable).toList := by
  have hlog : ∀ effects : List (Log.Effect H),
      (effects.filterMap fun e => (Effect.log e).ack?) = [] :=
    fun _ => List.filterMap_eq_nil_iff.mpr fun _ _ => rfl
  rw [filterMap_receive, hlog]
  exact List.filterMap_some

/-- Nothing else is acknowledged. -/
theorem acks_respond : (s.respond clock x).2.filterMap Effect.ack? = x.ack?.toList := by
  have hclock := s.filterMap_onClock_eq_nil (g := Effect.ack?) fun _ => rfl
  cases x with
  | handle sender m =>
    cases m with
    | systemTime m => exact hclock (·.onSystemTime clock m)
    | timesync m => exact hclock (·.onTimesync clock.steady m)
    | logData m => exact s.acks_receive (.ofLogData sender m) false
    | logDataAcked m => exact s.acks_receive (.ofLogData sender m) true
  | work => exact hclock (·.work clock.steady)
  | setLink active => rfl
  | setClock next => rfl

/-! ### Runs -/

/-- The session after a run. -/
def after (s : Session H) (clock : Clock.Manual) : List Stimulus → Session H
  | [] => s
  | x :: run => (s.respond clock x).1.after (x.clockAfter clock) run

/-- What a session does during a run. -/
def effects (s : Session H) (clock : Clock.Manual) : List Stimulus → List (Effect H)
  | [] => []
  | x :: run => (s.respond clock x).2 ++ (s.respond clock x).1.effects (x.clockAfter clock) run

/-- **The clock engine of a session does what it does alone**, given only what concerns it. -/
theorem clock_effects (run : List Stimulus) :
    (s.after clock run).clock = s.clock.after (Stimulus.moments clock run) ∧
      (s.effects clock run).filterMap Effect.clock? =
        s.clock.effects (Stimulus.moments clock run) := by
  induction run generalizing s clock with
  | nil => exact ⟨rfl, rfl⟩
  | cons x run ih =>
    obtain ⟨hstate, hdid⟩ := s.clock_respond clock x
    obtain ⟨hrest, hlater⟩ := ih (s.respond clock x).1 (x.clockAfter clock)
    rw [Stimulus.moments, Clock.Synchronizer.after_append, Clock.Synchronizer.effects_append,
      ← hstate, ← hdid, ← hrest, ← hlater]
    exact ⟨rfl, List.filterMap_append⟩

/-- **The log engine of a session does what it does alone**, given only the chunks. -/
theorem log_effects (run : List Stimulus) :
    (s.after clock run).log = s.log.after (run.filterMap Stimulus.chunk?) ∧
      (s.effects clock run).filterMap Effect.log? =
        s.log.effects (run.filterMap Stimulus.chunk?) := by
  induction run generalizing s clock with
  | nil => exact ⟨rfl, rfl⟩
  | cons x run ih =>
    obtain ⟨hstate, hdid⟩ := s.log_respond clock x
    obtain ⟨hrest, hlater⟩ := ih (s.respond clock x).1 (x.clockAfter clock)
    rw [after, effects, List.filterMap_append, hrest, hlater, hstate, hdid]
    cases hx : x.chunk? with
    | none =>
      rw [List.filterMap_cons_none hx]
      exact ⟨rfl, rfl⟩
    | some chunk =>
      rw [List.filterMap_cons_some hx]
      refine ⟨rfl, ?_⟩
      simp only [Option.toList_some, Log.Receiver.effects, Log.Receiver.after, List.append_nil]

/-- **What is acknowledged are the chunks whose senders wait for it**, in order. -/
theorem acks_effects (run : List Stimulus) :
    (s.effects clock run).filterMap Effect.ack? = run.filterMap Stimulus.ack? := by
  induction run generalizing s clock with
  | nil => rfl
  | cons x run ih =>
    rw [effects, List.filterMap_append, ih, acks_respond]
    cases hx : x.ack? with
    | none => rw [List.filterMap_cons_none hx]; rfl
    | some ack => rw [List.filterMap_cons_some hx]; rfl

end Session

/-! ### What goes out -/

namespace Clock.Synchronizer

/-- A call to the clock engine acknowledges nothing. -/
theorem ack?_perform (s : Synchronizer) (t : Moment) :
    ∀ e ∈ (s.perform t).2, e.outgoing?.bind Wire.Outbound.ack? = none := by
  obtain ⟨clock, call⟩ := t
  cases call with
  | timesync m =>
    simp only [perform, onTimesync]
    split
    · simp [Effect.outgoing?, Wire.Outbound.ack?]
    · split <;> simp [Effect.outgoing?]
  | systemTime m =>
    simp only [perform, onSystemTime]
    split <;> simp [Effect.outgoing?, Wire.Outbound.ack?]
  | work =>
    simp only [perform, work]
    split <;> simp [Effect.outgoing?, Wire.Outbound.ack?]
  | setLink | reset => simp [perform]

theorem ack?_effects (s : Synchronizer) (ts : List Moment) :
    ∀ e ∈ s.effects ts, e.outgoing?.bind Wire.Outbound.ack? = none := by
  induction ts generalizing s with
  | nil => simp [effects]
  | cons t ts ih =>
    intro e he
    rcases List.mem_append.mp he with hnow | hlater
    · exact s.ack?_perform t e hnow
    · exact ih _ e hlater

end Clock.Synchronizer

namespace Session

variable (s : Session H) (clock : Clock.Manual) (run : List Stimulus)

/-- Of what a session sends, the clock engine sends no acknowledgement. -/
theorem ack?_of_clock {e : Clock.Effect} (he : Effect.clock e ∈ s.effects clock run) :
    e.outgoing?.bind Wire.Outbound.ack? = none := by
  apply s.clock.ack?_effects (Stimulus.moments clock run)
  rw [← (s.clock_effects clock run).2]
  exact List.mem_filterMap.mpr ⟨_, he, rfl⟩

/-- The acknowledgements among the messages that are sent. -/
theorem acks_outgoing :
    ((s.effects clock run).filterMap Effect.outgoing?).filterMap Wire.Outbound.ack? =
      run.filterMap Stimulus.ack? := by
  rw [← s.acks_effects clock run, List.filterMap_filterMap]
  apply List.filterMap_congr
  intro e he
  cases e with
  | clock c =>
    have hc := s.ack?_of_clock clock run he
    cases c <;> exact hc
  | handling | log | acknowledge => rfl

/-- All other messages that are sent are those that the clock engine sends. -/
theorem others_outgoing :
    ((s.effects clock run).filterMap Effect.outgoing?).filter (·.ack?.isNone) =
      (s.clock.effects (Stimulus.moments clock run)).filterMap Clock.Effect.outgoing? := by
  rw [← (s.clock_effects clock run).2, List.filter_filterMap, List.filterMap_filterMap]
  apply List.filterMap_congr
  intro e he
  cases e with
  | clock c =>
    have hc := s.ack?_of_clock clock run he
    cases c with
    | send m =>
      have hm : m.ack? = none := hc
      show (some m).filter _ = some m
      simp [hm]
    | event | ignored => rfl
  | handling | log | acknowledge => rfl

end Session

/-! ### The station -/

namespace Station

/-- A station responds as its session does, and sends what this sends. -/
theorem undergo_eq (s : Station H) (x : Stimulus) :
    s.undergo x =
      (⟨x.clockAfter s.clock, (settle s.outbox (s.session.respond s.clock x).2).1,
          (s.session.respond s.clock x).1⟩,
        (settle s.outbox (s.session.respond s.clock x).2).2) := by
  cases x <;> rfl

/-- **A run of a station is a run of its session**, with what was sent waiting in order. -/
theorem after_unbounded {s : Station H} (hc : s.outbox.connected = true)
    (hr : s.outbox.capacity = none) (run : List Stimulus) :
    (s.after run).session = s.session.after s.clock run ∧
      (s.after run).outbox.waiting =
        s.outbox.waiting ++ (s.session.effects s.clock run).filterMap Effect.outgoing? ∧
      s.seen run =
        ((s.session.effects s.clock run).filter (·.outgoing?.isNone)).map .effect := by
  induction run generalizing s with
  | nil => simp [after, seen, Session.after, Session.effects]
  | cons x run ih =>
    obtain ⟨clock, outbox, session⟩ := s
    unfold after seen
    rw [undergo_eq, settle_unbounded hc hr]
    obtain ⟨hsession, hwaiting, hseen⟩ := ih
      (s := ⟨x.clockAfter clock, { outbox with waiting := outbox.waiting ++
        ((session.respond clock x).2.filterMap Effect.outgoing?) }, (session.respond clock x).1⟩)
      hc hr
    refine ⟨hsession, ?_, ?_⟩
    · rw [hwaiting, Session.effects, List.filterMap_append, List.append_assoc]
    · rw [hseen, Session.effects, List.filter_append, List.map_append]

/-- What is to be seen of the two engines, and the two sorts of messages that go out. -/
theorem projections (session : Session H) (clock : Clock.Manual) (run : List Stimulus) :
    let start : Station H := ⟨clock, .unbounded, session⟩
    let alone := session.clock.effects (Stimulus.moments clock run)
    (start.seen run).filterMap Observation.clock? = alone.filter (·.outgoing?.isNone) ∧
      (start.after run).outbox.waiting.filter (·.ack?.isNone) =
        alone.filterMap Clock.Effect.outgoing? ∧
      (start.seen run).filterMap Observation.log? =
        session.log.effects (run.filterMap Stimulus.chunk?) ∧
      (start.after run).outbox.waiting.filterMap Wire.Outbound.ack? =
        run.filterMap Stimulus.ack? := by
  intro start alone
  obtain ⟨-, hwaiting, hseen⟩ := after_unbounded (s := start) rfl rfl run
  have hwaiting : (start.after run).outbox.waiting =
      (session.effects clock run).filterMap Effect.outgoing? := hwaiting
  rw [hwaiting, hseen, List.filterMap_map, List.filterMap_map, List.filterMap_filter,
    List.filterMap_filter]
  refine ⟨?_, session.others_outgoing clock run, ?_, session.acks_outgoing clock run⟩
  · show _ = (session.clock.effects (Stimulus.moments clock run)).filter _
    rw [← (session.clock_effects clock run).2, List.filter_filterMap]
    apply List.filterMap_congr
    intro e _
    cases e with
    | clock c => cases c <;> rfl
    | handling | log | acknowledge => rfl
  · rw [← (session.log_effects clock run).2]
    apply List.filterMap_congr
    intro e _
    cases e with
    | clock c => cases c <;> rfl
    | handling | log | acknowledge => rfl

end Station

/-! ### Reordering -/

namespace Stimulus

/-- Log traffic makes no call to the clock engine. -/
theorem moments_filter (clock : Clock.Manual) (run : List Stimulus) :
    moments clock (run.filter fun x => !x.isLog) = moments clock run := by
  induction run generalizing clock with
  | nil => rfl
  | cons x run ih =>
    cases hx : x.isLog with
    | false =>
      rw [List.filter_cons_of_pos (by simp [hx]), moments, moments, ih]
    | true =>
      rw [List.filter_cons_of_neg (by simp [hx]), ih, moments]
      cases x with
      | handle sender m =>
        cases m with
        | systemTime | timesync => cases hx
        | logData | logDataAcked => rfl
      | work | setLink | setClock => cases hx

/-- Only log traffic brings chunks. -/
theorem chunks_filter (run : List Stimulus) :
    (run.filter isLog).filterMap chunk? = run.filterMap chunk? := by
  rw [List.filterMap_filter]
  apply List.filterMap_congr
  intro x _
  unfold isLog
  cases x.chunk? <;> rfl

/-- Only for log traffic does a sender wait. -/
theorem acks_filter (run : List Stimulus) :
    (run.filter isLog).filterMap ack? = run.filterMap ack? := by
  rw [List.filterMap_filter]
  apply List.filterMap_congr
  intro x _
  cases x with
  | handle sender m => cases m <;> rfl
  | work | setLink | setClock => rfl

end Stimulus

/-- **The engines of a session are isolated from each other.** After any run of a station that
keeps what is sent, the clock engine is as it would be alone, given only the calls to it; so are
the events that it tells and the messages that it sends. The log engine is as it would be alone,
given only the chunks; so is all that it does. One acknowledgement goes out for every chunk whose
sender waits for it, in order, and whatever became of the chunk. So a run in which log traffic and
everything else come in another order, each by itself in the same one, ends with both engines the
same, and each of them did the same. -/
theorem Station.isolation (session : Session H) (clock : Clock.Manual) (run : List Stimulus) :
    let start : Station H := ⟨clock, .unbounded, session⟩
    let s := start.after run
    let calls := Stimulus.moments clock run
    let chunks := run.filterMap Stimulus.chunk?
    (s.session.clock = session.clock.after calls ∧
      (start.seen run).filterMap Observation.clock? =
        (session.clock.effects calls).filter (·.outgoing?.isNone) ∧
      s.outbox.waiting.filter (·.ack?.isNone) =
        (session.clock.effects calls).filterMap Clock.Effect.outgoing?) ∧
    (s.session.log = session.log.after chunks ∧
      (start.seen run).filterMap Observation.log? = session.log.effects chunks) ∧
    s.outbox.waiting.filterMap Wire.Outbound.ack? = run.filterMap Stimulus.ack? ∧
    ∀ other : List Stimulus, other.filter Stimulus.isLog = run.filter Stimulus.isLog →
      (other.filter fun x => !x.isLog) = (run.filter fun x => !x.isLog) →
      let t := start.after other
      t.session.clock = s.session.clock ∧ t.session.log = s.session.log ∧
        (start.seen other).filterMap Observation.clock? =
          (start.seen run).filterMap Observation.clock? ∧
        (start.seen other).filterMap Observation.log? =
          (start.seen run).filterMap Observation.log? ∧
        t.outbox.waiting.filter (·.ack?.isNone) = s.outbox.waiting.filter (·.ack?.isNone) ∧
        t.outbox.waiting.filterMap Wire.Outbound.ack? =
          s.outbox.waiting.filterMap Wire.Outbound.ack? := by
  intro start s calls chunks
  have hsession : ∀ run, (start.after run).session = session.after clock run :=
    fun run => (after_unbounded (s := start) rfl rfl run).1
  have hclock : ∀ run, (start.after run).session.clock =
      session.clock.after (Stimulus.moments clock run) :=
    fun run => (hsession run) ▸ (session.clock_effects clock run).1
  have hlog : ∀ run, (start.after run).session.log =
      session.log.after (run.filterMap Stimulus.chunk?) :=
    fun run => (hsession run) ▸ (session.log_effects clock run).1
  obtain ⟨hevents, hsent, hdid, hacks⟩ := projections session clock run
  refine ⟨⟨hclock run, hevents, hsent⟩, ⟨hlog run, hdid⟩, hacks, ?_⟩
  intro other hlogs hrest t
  have hcalls : Stimulus.moments clock other = Stimulus.moments clock run := by
    rw [← Stimulus.moments_filter clock other, hrest, Stimulus.moments_filter]
  have hchunks : other.filterMap Stimulus.chunk? = run.filterMap Stimulus.chunk? := by
    rw [← Stimulus.chunks_filter other, hlogs, Stimulus.chunks_filter]
  have hwaits : other.filterMap Stimulus.ack? = run.filterMap Stimulus.ack? := by
    rw [← Stimulus.acks_filter other, hlogs, Stimulus.acks_filter]
  obtain ⟨hevents', hsent', hdid', hacks'⟩ := projections session clock other
  rw [hcalls] at hevents' hsent'
  rw [hchunks] at hdid'
  rw [hwaits] at hacks'
  refine ⟨?_, ?_, hevents'.trans hevents.symm, hdid'.trans hdid.symm, hsent'.trans hsent.symm,
    hacks'.trans hacks.symm⟩
  · exact (hclock other).trans (hcalls ▸ (hclock run).symm)
  · exact (hlog other).trans (hchunks ▸ (hlog run).symm)

/-- A probe and an acknowledged chunk in either order: what goes out comes in either order too, and
both engines end up the same. The handler that looks at the chunk subscribes another one to
dropouts, and that one gets the dropout of the chunk. -/
theorem Station.isolation_swapped :
    let looker : Log.Listener := .relay 5 .dropout 6
    let log : Log.Receiver Log.Listener :=
      (Log.Receiver.new ⟨0, false⟩).mapRegistry (·.apply (.onChunk looker))
    let start : Station Log.Listener := ⟨⟨1000, 0⟩, .unbounded, ⟨.new {}, log⟩⟩
    let probe : Stimulus := .handle ⟨1, 1⟩ (.timesync ⟨0, 9⟩)
    let chunk : Stimulus := .handle ⟨2, 1⟩ (.logDataAcked ⟨3, ⟨255, 190⟩, 0, [2, 0, 0x4f, 1, 0]⟩)
    (start.after [probe, chunk]).outbox.waiting =
        [.timesync ⟨1000, 9⟩, .logAck ⟨3, ⟨2, 1⟩⟩] ∧
      (start.after [chunk, probe]).outbox.waiting =
        [.logAck ⟨3, ⟨2, 1⟩⟩, .timesync ⟨1000, 9⟩] ∧
      (start.after [chunk, probe]).session.clock = (start.after [probe, chunk]).session.clock ∧
      (start.after [chunk, probe]).session.log = (start.after [probe, chunk]).session.log ∧
      (start.seen [chunk, probe]).filterMap Observation.log? =
        [.chunkHandlerCalled looker ⟨⟨2, 1⟩, 3, 0, [2, 0, 0x4f, 1, 0]⟩,
          .handlerCalled (.recorder 6) (.dropout 1)] := by
  intro looker log start probe chunk
  have h := (isolation (H := Log.Listener) ⟨.new {}, log⟩ ⟨1000, 0⟩ [probe, chunk]).2.2.2
    [chunk, probe] rfl rfl
  exact ⟨by decide, by decide, h.1, h.2.1, h.2.2.2.1.trans (by decide)⟩

end FlightLink
