/-
# The last registration of a kind gets the message

The program and the handlers themselves change who gets what, between messages and while a
message is given or a chunk looked at. What has happened so far (`Occurrence`, newest first) tells
who is subscribed (`installed`) and what the handlers remember (`remembered`): every message is
given to exactly the one that is subscribed, a change that a handler makes holds from the very next
message on, also inside a chunk (`handed`), and what is done about one kind leaves the others alone.

A run is followed step by step: the registry reflects the changes of the history
(`Receiver.Recorded`, `Receiver.Recorded.operate`), where each message that was given went to the
subscriber by then, and each chunk to the handler for chunks (`Truthful`). That a handler which
hands over its kind gets one message and its successor all later ones then follows from the history
alone (`succession`).

Key definitions: `Occurrence`, `installed`, `remembered`, `giving`, `looking`, `handed`,
`Registry.Follows`, `Operation`, `Receiver.operateAll`, `Receiver.recordAll`, `Receiver.Recorded`,
`Subscriber.HandsOver`.
Key theorems: `Receiver.deliverAll_handed`, `Receiver.Recorded.operateAll`, `succession`,
`Receiver.last_registration_wins`.
-/
import FlightLink.Log.Listener
import FlightLink.Proofs.Log.Delivery
import FlightLink.Proofs.Log.Registration

namespace FlightLink
namespace Log

/-! ### What has happened to the subscribers -/

/-- What can happen to the subscribers of a log. -/
inductive Occurrence (H : Type) where
  /-- The program made a change. -/
  | changed (c : Change H)
  /-- The receiver of a mailbox went away. -/
  | closed (number : Nat)
  /-- A message was given to a subscriber, which then made changes, or to nobody. -/
  | given (m : Message) (taker : Option (Subscriber H)) (made : List (Change H))
  /-- A handler looked at a chunk and then made changes, or none looked at it. -/
  | looked (chunk : Chunk) (looker : Option H) (made : List (Change H))
  deriving DecidableEq, Repr

section Occurrences

variable {H : Type}

namespace Occurrence

/-- The changes that were made, newest first. -/
def changes : Occurrence H → List (Change H)
  | changed c => [c]
  | closed _ => []
  | given _ _ made => made.reverse
  | looked _ _ made => made.reverse

/-- The receiver of this mailbox went away. -/
def closes (number : Nat) : Occurrence H → Bool
  | closed n => number == n
  | _ => false

/-- The message that was given, or the chunk that was looked at, if only by nobody. -/
def cue? : Occurrence H → Option Cue
  | given m _ _ => some (.message m)
  | looked chunk _ _ => some (.chunk chunk)
  | _ => none

/-- Who got the message, if there was one of this kind. -/
def recipient? (kind : Kind) : Occurrence H → Option (Option (Subscriber H))
  | given m taker _ => if m.kind = kind then some taker else none
  | _ => none

end Occurrence

/-- The changes of a history, newest first. -/
def changesIn (past : List (Occurrence H)) : List (Change H) := past.flatMap Occurrence.changes

/-- The receiver of this mailbox has gone away. -/
def gone (past : List (Occurrence H)) (number : Nat) : Bool :=
  past.any (Occurrence.closes number)

/-- The subscriber that the latest registration of a kind installed, if no unsubscription followed. -/
def installed (past : List (Occurrence H)) (kind : Kind) : Option (Subscriber H) :=
  latest kind (changesIn past)

/-- Who got the messages of a kind, newest first. -/
def recipients (kind : Kind) (past : List (Occurrence H)) : List (Option (Subscriber H)) :=
  past.filterMap (Occurrence.recipient? kind)

/-- What changes no subscriber of a kind leaves the installed one. -/
theorem installed_append_of_ne {kind : Kind} {recent : List (Occurrence H)}
    (past : List (Occurrence H)) (h : ∀ c ∈ changesIn recent, c.kind? ≠ some kind) :
    installed (recent ++ past) kind = installed past kind := by
  unfold installed changesIn
  rw [List.flatMap_append]
  exact latest_append_of_ne _ h

/-- So does a single occurrence. -/
theorem installed_cons_of_ne {kind : Kind} {x : Occurrence H} (past : List (Occurrence H))
    (h : ∀ c ∈ x.changes, c.kind? ≠ some kind) : installed (x :: past) kind = installed past kind :=
  latest_append_of_ne _ h

/-- The handler for chunks. -/
def installedLooker (past : List (Occurrence H)) : Option H := latestLooker (changesIn past)

variable [Reactive H]

/-- What the handlers remember of a history: each call left the memory to the next one. -/
def remembered : List (Occurrence H) → Reactive.Memory H
  | [] => Reactive.initial
  | .given m taker _ :: past =>
    (reactionOf (gone past) (occupied (changesIn past)) (remembered past) m taker).2
  | .looked chunk looker _ :: past =>
    (answerOf (occupied (changesIn past)) (remembered past) (.chunk chunk) looker).2
  | _ :: past => remembered past

/-- A message is given to the subscriber of its kind. -/
def giving (past : List (Occurrence H)) (m : Message) : Occurrence H :=
  .given m (installed past m.kind)
    (reactionOf (gone past) (occupied (changesIn past)) (remembered past) m
      (installed past m.kind)).1

/-- A chunk is looked at by the handler for chunks. -/
def looking (past : List (Occurrence H)) (chunk : Chunk) : Occurrence H :=
  .looked chunk (installedLooker past)
    (answerOf (occupied (changesIn past)) (remembered past) (.chunk chunk) (installedLooker past)).1

/-- A message is given, or a chunk looked at. -/
def meeting (past : List (Occurrence H)) : Cue → Occurrence H
  | .message m => giving past m
  | .chunk chunk => looking past chunk

/-- The history when messages were given too, one after another. -/
def given (past : List (Occurrence H)) : List Message → List (Occurrence H)
  | [] => past
  | m :: ms => given (giving past m :: past) ms

/-- What is seen of messages given one after another: each goes to the subscriber that the history
up to it has installed, the changes made with the message before included. -/
def handed (past : List (Occurrence H)) : List Message → List (Effect H)
  | [] => []
  | m :: ms => Effect.handing m (installed past m.kind) :: handed (giving past m :: past) ms

/-- Each message went to who was installed by then, and each chunk to who looked at chunks. -/
def Truthful : List (Occurrence H) → Prop
  | [] => True
  | x :: past => (∀ cue, x.cue? = some cue → x = meeting past cue) ∧ Truthful past

namespace Truthful

variable {past : List (Occurrence H)}

theorem cons_of_none (h : Truthful past) {x : Occurrence H} (hx : x.cue? = none) :
    Truthful (x :: past) := by
  refine ⟨fun cue hcue => ?_, h⟩
  rw [hx] at hcue
  cases hcue

theorem cons_giving (h : Truthful past) (m : Message) : Truthful (giving past m :: past) :=
  ⟨fun _ hcue => Option.some.inj hcue ▸ rfl, h⟩

theorem cons_looking (h : Truthful past) (chunk : Chunk) : Truthful (looking past chunk :: past) :=
  ⟨fun _ hcue => Option.some.inj hcue ▸ rfl, h⟩

theorem given : ∀ (ms : List Message) {past : List (Occurrence H)}, Truthful past →
    Truthful (Log.given past ms)
  | [], _, h => h
  | m :: ms, _, h => given ms (h.cons_giving m)

end Truthful

end Occurrences

/-! ### Handing over -/

section Succession

variable {H : Type}

theorem reactionOf_handler? [Reactive H] {s : Subscriber H} {h : H} (hs : s.handler? = some h)
    (gone : Nat → Bool) (seen : Kind → Bool) (memory : Reactive.Memory H) (m : Message) :
    reactionOf gone seen memory m (some s) = Reactive.react h (.message m) seen memory := by
  cases s <;> cases hs <;> rfl

/-- A handler that answers every message of a kind with this one change of the subscriber of the
kind, besides what it changes about others, whatever it sees and remembers: it unsubscribes itself,
or puts a successor in its place. -/
def Subscriber.HandsOver [Reactive H] (s : Subscriber H) (kind : Kind) (c : Change H) : Prop :=
  c.kind? = some kind ∧ ∃ h, s.handler? = some h ∧ ∀ m : Message, m.kind = kind →
    ∀ seen memory, let made := (Reactive.react h (.message m) seen memory).1
      c ∈ made ∧ ∀ d ∈ made, d.kind? = some kind → d = c

/-- It is a message of this kind that this subscriber got. -/
def Occurrence.IsFor (kind : Kind) (s : Subscriber H) (x : Occurrence H) : Prop :=
  x.recipient? kind = some (some s)

/-- A message of this kind that was given. -/
theorem Occurrence.exists_of_recipient? {kind : Kind} {x : Occurrence H}
    {taker : Option (Subscriber H)} (h : x.recipient? kind = some taker) :
    ∃ m made, x = .given m taker made ∧ m.kind = kind := by
  cases x with
  | given m taker' made =>
    unfold recipient? at h
    dsimp only at h
    split at h
    · rename_i hk
      cases h
      exact ⟨m, made, rfl, hk⟩
    · cases h
  | _ => cases h

/-- What puts a handler in place puts the same one there whenever it is done. -/
theorem Change.installs_handler {c : Change H} {s : Subscriber H} {h : H} {number : Nat}
    (hs : s.handler? = some h) (hc : c.installs number = some s) (n : Nat) :
    c.installs n = c.installs number := by
  cases c with
  | openMailbox kind capacity =>
    cases hc
    cases hs
  | _ => rfl

variable [Reactive H]

/-- Who got a message was installed by then. -/
theorem Truthful.recipient {kind : Kind} {x : Occurrence H} {past : List (Occurrence H)}
    {taker : Option (Subscriber H)} (ht : Truthful (x :: past))
    (h : x.recipient? kind = some taker) : taker = installed past kind := by
  obtain ⟨m, made, rfl, rfl⟩ := Occurrence.exists_of_recipient? h
  have hx : _ = giving past m := ht.1 (.message m) rfl
  unfold giving at hx
  injection hx

/-- When it gets a message of the kind, the change is made. -/
theorem Truthful.installed_of_isFor {kind : Kind} {s : Subscriber H} {c : Change H}
    {x : Occurrence H} {past : List (Occurrence H)} (ht : Truthful (x :: past))
    (ho : s.HandsOver kind c) (hx : x.IsFor kind s) :
    ∃ number, installed (x :: past) kind = c.installs number := by
  obtain ⟨hk, h, hs, hreact⟩ := ho
  have htaker := ht.recipient hx
  obtain ⟨m, made, rfl, rfl⟩ := Occurrence.exists_of_recipient? hx
  have hmade : made = (Reactive.react h (.message m) (occupied (changesIn past))
      (remembered past)).1 := by
    have hgiving : _ = giving past m := ht.1 (.message m) rfl
    unfold giving at hgiving
    injection hgiving with _ _ hmade
    rw [hmade, ← htaker, reactionOf_handler? hs]
  subst hmade
  obtain ⟨hc, hall⟩ := hreact m rfl (occupied (changesIn past)) (remembered past)
  exact latest_append_of_eq hk (changesIn past) (List.mem_reverse.mpr hc) fun d hd =>
    hall d (List.mem_reverse.mp hd)

/-- **A handler that hands over its kind gets one message of it**, and what it put in its place gets
all later ones, as long as nobody else changes the subscriber of the kind. -/
theorem succession {kind : Kind} {s : Subscriber H} {c : Change H} {before : List (Occurrence H)}
    (hs : installed before kind = some s) (ho : s.HandsOver kind c) :
    ∀ {recent : List (Occurrence H)}, Truthful (recent ++ before) →
      (∀ x ∈ recent, x.IsFor kind s ∨ ∀ d ∈ x.changes, d.kind? ≠ some kind) →
      (recipients kind recent = [] ∧ installed (recent ++ before) kind = some s) ∨
        ∃ n number,
          recipients kind recent = List.replicate n (c.installs number) ++ [some s] ∧
            installed (recent ++ before) kind = c.installs number
  | [], _, _ => .inl ⟨rfl, hs⟩
  | x :: recent, ht, hothers => by
    have ih := succession hs ho ht.2 fun y hy => hothers y (List.mem_cons_of_mem _ hy)
    by_cases hx : x.IsFor kind s
    · -- It gets the message, so it is the subscriber still, and hands over now.
      obtain ⟨number', hnext⟩ := ht.installed_of_isFor ho hx
      have hstill := ht.recipient hx
      have hrecipients : recipients kind (x :: recent) = some s :: recipients kind recent :=
        List.filterMap_cons_some hx
      rcases ih with ⟨hnone, -⟩ | ⟨n, number, hgot, hnow⟩
      · exact .inr ⟨0, number', by rw [hrecipients, hnone]; rfl, hnext⟩
      · -- It put itself in its place.
        obtain ⟨-, h, hh, -⟩ := ho
        have hself : c.installs number = some s := hnow.symm.trans hstill.symm
        refine .inr ⟨n + 1, number, ?_, ?_⟩
        · rw [hrecipients, hgot, hself]
          rfl
        · exact hnext.trans (Change.installs_handler hh hself number')
    · have hkeep : installed (x :: recent ++ before) kind = installed (recent ++ before) kind :=
        installed_cons_of_ne _ ((hothers x List.mem_cons_self).resolve_left hx)
      cases htaker : x.recipient? kind with
      | none =>
        have hrecipients : recipients kind (x :: recent) = recipients kind recent :=
          List.filterMap_cons_none htaker
        rw [hrecipients, hkeep]
        exact ih
      | some taker =>
        have hrecipients : recipients kind (x :: recent) = taker :: recipients kind recent :=
          List.filterMap_cons_some htaker
        have hnow := ht.recipient htaker
        rcases ih with ⟨-, hfirst⟩ | ⟨n, number, hgot, hlater⟩
        · exact absurd (htaker.trans (congrArg some (hnow.trans hfirst))) hx
        · refine .inr ⟨n + 1, number, ?_, hkeep.trans hlater⟩
          rw [hrecipients, hgot, hnow.trans hlater]
          rfl

end Succession

/-! ### A registry and its history -/

namespace Registry

variable {H : Type} [Reactive H]

/-- The registry is what the history says, and its handlers remember what they should. -/
structure Follows (g : Registry H) (past : List (Occurrence H)) : Prop where
  reflects : g.Reflects (changesIn past) (gone past)
  memory_eq : g.memory = remembered past

namespace Follows

variable {g : Registry H} {past : List (Occurrence H)}

/-- **A message is given to who is installed.** -/
theorem dispatch (h : g.Follows past) (m : Message) :
    (Receiver.dispatch g m).2 =
        ([Effect.handing m (installed past m.kind)], (installed past m.kind).isSome) ∧
      (Receiver.dispatch g m).1.Follows (giving past m :: past) := by
  obtain ⟨hmet, hreflects, hmemory⟩ := h.reflects.dispatch m
  rw [h.memory_eq] at hreflects hmemory
  exact ⟨hmet, hreflects, hmemory⟩

/-- **A chunk is looked at by the handler for chunks.** -/
theorem lookAt (h : g.Follows past) (chunk : Chunk) :
    (g.lookAt chunk).2 = installedLooker past ∧
      (g.lookAt chunk).1.Follows (looking past chunk :: past) := by
  obtain ⟨hlooker, hreflects, hmemory⟩ := h.reflects.lookAt chunk
  rw [h.memory_eq] at hreflects hmemory
  exact ⟨hlooker, hreflects, hmemory⟩

theorem apply (h : g.Follows past) (c : Change H) : (g.apply c).Follows (.changed c :: past) :=
  ⟨h.reflects.apply c, (memory_foldl [c] g).trans h.memory_eq⟩

/-- The receiver of a mailbox goes away, if there is such a mailbox. -/
theorem closeMailbox (h : g.Follows past) (number : Nat) :
    (g.closeMailbox number).Follows
      (if number < opened (changesIn past) then .closed number :: past else past) := by
  split
  · exact ⟨h.reflects.closeMailbox ‹_›, h.memory_eq⟩
  · rename_i hn
    rw [h.reflects.closeMailbox_of_le (Nat.le_of_not_lt hn)]
    exact h

end Follows

end Registry

/-! ### Runs of a receiver -/

/-- What a program does with a log. -/
inductive Operation (H : Type) where
  | change (c : Change H)
  | dispatch (m : Message)
  | ingest (chunk : Chunk)
  /-- Reads from a mailbox. -/
  | receive (number : Nat)
  /-- Lets the receiver of a mailbox go. -/
  | closeMailbox (number : Nat)
  deriving DecidableEq, Repr

namespace Receiver

variable {H : Type} [Reactive H]

/-- The messages that a chunk completes. -/
def messages (r : Receiver H) (chunk : Chunk) : List Message :=
  (r.stream.intake chunk.intake).2.frames.filterMap (Frame.message? r.config.legacyKinds)

/-- The receiver after an operation. -/
def operate (r : Receiver H) : Operation H → Receiver H
  | .change c => r.mapRegistry (·.apply c)
  | .dispatch m => r.mapRegistry fun g => (dispatch g m).1
  | .ingest chunk => (r.ingest chunk).1
  | .receive number => r.mapRegistry (·.updateMailbox number fun box => box.receive.2)
  | .closeMailbox number => r.mapRegistry (·.closeMailbox number)

/-- The receiver after operations. -/
def operateAll (r : Receiver H) : List (Operation H) → Receiver H
  | [] => r
  | op :: run => (r.operate op).operateAll run

/-- The history after an operation. The registry is not asked: it tells what should happen. -/
def record (r : Receiver H) (past : List (Occurrence H)) : Operation H → List (Occurrence H)
  | .change c => .changed c :: past
  | .dispatch m => giving past m :: past
  | .ingest chunk => given (looking past chunk :: past) (r.messages chunk)
  | .receive _ => past
  | .closeMailbox number => if number < opened (changesIn past) then .closed number :: past else past

/-- The history after operations. -/
def recordAll (r : Receiver H) (past : List (Occurrence H)) :
    List (Operation H) → List (Occurrence H)
  | [] => past
  | op :: run => (r.operate op).recordAll (r.record past op) run

/-- **The messages of frames are given one after another**, each to the subscriber by then. -/
theorem deliverAll_handed (config : StreamConfig) (sequence : UInt16) :
    ∀ (frames : List Frame) {g : Registry H} {past : List (Occurrence H)}, g.Follows past →
      let ms := frames.filterMap (Frame.message? config.legacyKinds)
      (deliverAll config sequence g frames).2.filter Effect.hands = handed past ms ∧
        (deliverAll config sequence g frames).1.Follows (given past ms)
  | [], _, _, h => ⟨rfl, h⟩
  | f :: frames, g, past, h => by
    have hf := interpret_toOption config f
    unfold deliverAll deliver
    rw [List.filterMap_cons, ← hf]
    cases config.interpret f with
    | error skip => exact deliverAll_handed config sequence frames h
    | ok m =>
      obtain ⟨hmet, hnext⟩ := h.dispatch m
      have hseen : (dispatch g m).2.1 = [Effect.handing m (installed past m.kind)] :=
        congrArg Prod.fst hmet
      obtain ⟨hlater, hafter⟩ := deliverAll_handed config sequence frames hnext
      refine ⟨?_, hafter⟩
      show ((dispatch g m).2.1 ++ (deliverAll config sequence (dispatch g m).1 frames).2).filter
        Effect.hands = _
      rw [hseen, List.singleton_append, List.filter_cons_of_pos (hands_handing _ _), hlater]
      rfl

/-- A chunk is looked at, and then gives its messages one after another. -/
theorem ingest_handed {r : Receiver H} {past : List (Occurrence H)} (h : r.registry.Follows past)
    (chunk : Chunk) :
    (r.ingest chunk).2.filter Effect.hands =
        handed (looking past chunk :: past) (r.messages chunk) ∧
      (r.ingest chunk).1.registry.Follows
        (given (looking past chunk :: past) (r.messages chunk)) := by
  obtain ⟨hgiven, hafter⟩ := deliverAll_handed r.config chunk.sequence
    (r.stream.intake chunk.intake).2.frames (h.lookAt chunk).2
  refine ⟨?_, hafter⟩
  rw [← List.filterMap_eq_filter] at hgiven ⊢
  exact (r.filterMap_ingest chunk (fun _ => rfl) fun _ => rfl).trans hgiven

/-- The registry is what the history says, and each message went to who was installed by then. -/
structure Recorded (r : Receiver H) (past : List (Occurrence H)) : Prop where
  registry : r.registry.Follows past
  truthful : Truthful past

namespace Recorded

variable {r : Receiver H} {past : List (Occurrence H)}

theorem new (config : StreamConfig) : (Receiver.new config : Receiver H).Recorded [] :=
  ⟨⟨Registry.reflects_empty, rfl⟩, trivial⟩

/-- **Each operation is recorded.** -/
theorem operate (h : r.Recorded past) (op : Operation H) :
    (r.operate op).Recorded (r.record past op) := by
  cases op with
  | change c => exact ⟨h.registry.apply c, h.truthful.cons_of_none rfl⟩
  | dispatch m => exact ⟨(h.registry.dispatch m).2, h.truthful.cons_giving m⟩
  | ingest chunk =>
    exact ⟨(ingest_handed h.registry chunk).2, .given _ (h.truthful.cons_looking chunk)⟩
  | receive number =>
    exact ⟨⟨h.registry.reflects.receive number, h.registry.memory_eq⟩, h.truthful⟩
  | closeMailbox number =>
    refine ⟨h.registry.closeMailbox number, ?_⟩
    unfold record
    dsimp only
    split
    · exact h.truthful.cons_of_none rfl
    · exact h.truthful

theorem operateAll : ∀ (run : List (Operation H)) {r : Receiver H} {past : List (Occurrence H)},
    r.Recorded past → (r.operateAll run).Recorded (r.recordAll past run)
  | [], _, _, h => h
  | op :: run, _, _, h => operateAll run (h.operate op)

/-- Asking for a kind is answered from the history. -/
theorem isSubscribed (h : r.Recorded past) (kind : Kind) :
    r.registry.isSubscribed kind = (installed past kind).isSome :=
  congrArg Option.isSome (h.registry.reflects.subscriber kind)

/-- What changes no subscriber of a kind leaves the one in the registry. -/
theorem subscriber_operate_of_ne (h : r.Recorded past) (op : Operation H) {kind : Kind}
    {recent : List (Occurrence H)} (hrecent : r.record past op = recent ++ past)
    (hne : ∀ c ∈ changesIn recent, c.kind? ≠ some kind) :
    (r.operate op).registry.subscriber kind = r.registry.subscriber kind :=
  calc (r.operate op).registry.subscriber kind
      = installed (r.record past op) kind := (h.operate op).registry.reflects.subscriber kind
    _ = installed (recent ++ past) kind := by rw [hrecent]
    _ = installed past kind := installed_append_of_ne past hne
    _ = r.registry.subscriber kind := (h.registry.reflects.subscriber kind).symm

end Recorded

/-- **The last registration wins.** After any run a message is given to exactly the subscriber that
the latest registration of its kind installed, or to nobody if the kind was unsubscribed since or
never had one; asking and unsubscribing tell which. The messages of a chunk are given one after
another, when the handler for chunks has looked at it, with the changes made for one in force for
the next. A handler that unsubscribes itself, or puts another in its place, gets one message, and
all later ones go to nobody, or to the other. What does not change the subscriber of a kind leaves
it alone, whatever else it changes. -/
theorem last_registration_wins (config : StreamConfig) (run : List (Operation H)) :
    let r := (new config : Receiver H).operateAll run
    let past := (new config : Receiver H).recordAll [] run
    (∀ kind, r.registry.isSubscribed kind = (installed past kind).isSome ∧
      (r.registry.unsubscribe kind).2 = (installed past kind).isSome) ∧
    (∀ m, (dispatch r.registry m).2 =
      ([Effect.handing m (installed past m.kind)], (installed past m.kind).isSome)) ∧
    (∀ chunk, (r.ingest chunk).2.filter Effect.hands =
      handed (looking past chunk :: past) (r.messages chunk)) ∧
    (∀ recent before kind s c, past = recent ++ before → installed before kind = some s →
      s.HandsOver kind c → (∀ x ∈ recent, x.IsFor kind s ∨ ∀ d ∈ x.changes, d.kind? ≠ some kind) →
      recipients kind recent = [] ∨ ∃ n number,
        recipients kind recent = List.replicate n (c.installs number) ++ [some s]) ∧
    (∀ op recent kind, r.record past op = recent ++ past →
      (∀ c ∈ changesIn recent, c.kind? ≠ some kind) →
      (r.operate op).registry.subscriber kind = r.registry.subscriber kind) := by
  intro r past
  have h : r.Recorded past := Recorded.operateAll run (.new config)
  refine ⟨fun kind => ⟨h.isSubscribed kind, h.isSubscribed kind⟩,
    fun m => (h.registry.dispatch m).1, fun chunk => (ingest_handed h.registry chunk).1, ?_, ?_⟩
  · intro recent before kind s c hpast hs ho hothers
    have ht : Truthful (recent ++ before) := hpast ▸ h.truthful
    rcases succession hs ho ht hothers with ⟨hnone, -⟩ | ⟨n, number, hgot, -⟩
    · exact .inl hnone
    · exact .inr ⟨n, number, hgot⟩
  · intro op recent kind hrecent hne
    exact h.subscriber_operate_of_ne op hrecent hne

/-- A handler that unsubscribes itself gets the first of the two messages of one chunk, and nobody
gets the second. -/
theorem last_registration_wins_in_chunk :
    let once : Listener := .once 1 .dropout
    let chunk : Chunk := ⟨⟨1, 1⟩, 0, 0, [2, 0, 0x4f, 1, 0, 2, 0, 0x4f, 2, 0]⟩
    let subscribed : Operation Listener := .change (.subscribe .dropout once)
    let before : List (Occurrence Listener) := [.changed (.subscribe .dropout once)]
    let recent : List (Occurrence Listener) :=
      [.given (.dropout 2) none [],
        .given (.dropout 1) (some (.handler once)) [.unsubscribe .dropout],
        .looked chunk none []]
    (((new ⟨0, false⟩ : Receiver Listener).operate subscribed).ingest chunk).2.filter Effect.hands =
        [.handlerCalled once (.dropout 1), .unclaimed .dropout] ∧
      (new ⟨0, false⟩ : Receiver Listener).recordAll [] [subscribed, .ingest chunk] =
        recent ++ before ∧
      (recipients .dropout recent = [] ∨ ∃ n number, recipients .dropout recent =
        List.replicate n ((Change.unsubscribe .dropout).installs number) ++
          [some (.handler once)]) := by
  intro once chunk subscribed before recent
  have hrun : (new ⟨0, false⟩ : Receiver Listener).recordAll [] [subscribed, .ingest chunk] =
      recent ++ before := by decide
  have hover : (Subscriber.handler once).HandsOver .dropout (.unsubscribe .dropout) :=
    ⟨rfl, once, rfl, fun _ _ _ _ =>
      ⟨List.mem_singleton_self _, fun _ hd _ => List.mem_singleton.mp hd⟩⟩
  have hothers : ∀ x ∈ recent, x.IsFor .dropout (.handler once) ∨
      ∀ d ∈ x.changes, d.kind? ≠ some .dropout := by
    intro x hx
    simp only [recent, List.mem_cons, List.not_mem_nil, or_false] at hx
    rcases hx with rfl | rfl | rfl
    · exact .inr (by simp [Occurrence.changes])
    · exact .inl rfl
    · exact .inr (by simp [Occurrence.changes])
  refine ⟨?_, hrun, ?_⟩
  · exact (last_registration_wins ⟨0, false⟩ [subscribed]).2.2.1 chunk
  · exact (last_registration_wins ⟨0, false⟩ [subscribed, .ingest chunk]).2.2.2.1
      recent before .dropout (.handler once) (.unsubscribe .dropout) hrun rfl hover hothers

end Receiver

end Log
end FlightLink
