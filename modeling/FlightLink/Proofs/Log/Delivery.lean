/-
# What subscribers hear

Which messages the handlers of a receiver are called with when it takes in a chunk. If
every kind has a handler and no handler changes the registry, whatever it remembers, then
these are the messages of the frames that came out of the chunk, in order, and a frame that
has no message costs nothing but itself (`Receiver.ingest_passive`).

Key definitions: `Reactive.Quiet`, `Registry.Passive`, `Frame.message?`, `Effect.heard?`.
Key theorems: `Registry.Passive.call`, `Receiver.deliverAll_passive`,
`Receiver.filterMap_ingest`, `Receiver.ingest_passive`.
-/
import FlightLink.Log.Receiver
import FlightLink.Proofs.Log.Run

namespace FlightLink
namespace Log

/-- The message that a frame stands for; without the newer kinds if `legacy` is set. -/
def Frame.message? (legacy : Bool) (f : Frame) : Option Message :=
  match Kind.ofTag? f.tag with
  | none => none
  | some kind => if legacy && kind.newer then none else (Message.read kind f.payload).toOption

/-- The message that a handler was called with. -/
def Effect.heard? {H : Type} : Effect H → Option Message
  | handlerCalled _ m => some m
  | _ => none

/-- A chunk as the stream takes it in. -/
def Chunk.intake (chunk : Chunk) : Intake :=
  ⟨chunk.data, chunk.firstMessageOffset, some chunk.sequence⟩

/-- The handler makes no changes, whatever it is called with, sees and remembers. -/
def Reactive.Quiet {H : Type} [Reactive H] (h : H) : Prop :=
  ∀ cue seen memory, (Reactive.react h cue seen memory).1 = []

/-- Every kind has a handler, registered for any message or for messages of the kind, and no handler
changes who gets what. -/
structure Registry.Passive {H : Type} [Reactive H] (registry : Registry H) : Prop where
  subscriber : ∀ kind, ∃ h, Reactive.Quiet h ∧
    (registry.subscriber kind = some (.handler h) ∨
      registry.subscriber kind = some (.typed kind h))
  chunkHandler : ∀ h ∈ registry.chunkHandler, Reactive.Quiet h

namespace Registry.Passive

variable {H : Type} [Reactive H] {registry : Registry H}

/-- Only what it remembers is another after a quiet handler was called. -/
theorem call (h : registry.Passive) {handler : H} (hq : Reactive.Quiet handler) (cue : Cue) :
    (registry.call handler cue).Passive := by
  unfold Registry.call
  dsimp only
  rw [hq cue registry.isSubscribed registry.memory]
  exact ⟨h.subscriber, h.chunkHandler⟩

theorem lookAt (h : registry.Passive) (chunk : Chunk) : (registry.lookAt chunk).1.Passive := by
  unfold Registry.lookAt
  split
  · exact h
  · exact h.call (h.chunkHandler _ ‹_›) (.chunk chunk)

end Registry.Passive

/-- A frame is refused exactly when it stands for no message. -/
theorem interpret_toOption (config : StreamConfig) (f : Frame) :
    (config.interpret f).toOption = f.message? config.legacyKinds := by
  unfold StreamConfig.interpret Frame.message?
  cases Kind.ofTag? f.tag with
  | none => rfl
  | some kind =>
    dsimp only
    split
    · rfl
    · cases Message.read kind f.payload <;> rfl

namespace Receiver

variable {H : Type} [Reactive H]

/-- A quiet handler is called with the message, and that is all. -/
theorem dispatch_passive {registry : Registry H} (h : registry.Passive) (m : Message) :
    (dispatch registry m).1.Passive ∧
      (dispatch registry m).2.1.filterMap Effect.heard? = [m] := by
  obtain ⟨handler, hq, hs⟩ := h.subscriber m.kind
  have hd : registry.dispatch m = (registry.call handler (.message m), .called handler) := by
    unfold Registry.dispatch
    rcases hs with hs | hs
    · rw [hs]
    · rw [hs]
      exact if_pos rfl
  unfold dispatch
  rw [hd]
  exact ⟨h.call hq (.message m), rfl⟩

theorem deliver_passive {registry : Registry H} (h : registry.Passive) (config : StreamConfig)
    (sequence : UInt16) (f : Frame) :
    (deliver config sequence registry f).1.Passive ∧
      (deliver config sequence registry f).2.filterMap Effect.heard? =
        (f.message? config.legacyKinds).toList := by
  rw [← interpret_toOption]
  unfold deliver
  cases config.interpret f with
  | error skip => exact ⟨h, rfl⟩
  | ok m => exact dispatch_passive h m

/-- **Passive handlers hear the messages of the frames in order.** -/
theorem deliverAll_passive (config : StreamConfig) (sequence : UInt16) :
    ∀ (frames : List Frame) {registry : Registry H}, registry.Passive →
      (deliverAll config sequence registry frames).1.Passive ∧
        (deliverAll config sequence registry frames).2.filterMap Effect.heard? =
          frames.filterMap (Frame.message? config.legacyKinds)
  | [], _, h => ⟨h, rfl⟩
  | f :: frames, _, h => by
    obtain ⟨hr, hf⟩ := deliver_passive h config sequence f
    obtain ⟨hrs, hfs⟩ := deliverAll_passive config sequence frames hr
    unfold deliverAll
    refine ⟨hrs, ?_⟩
    rw [List.filterMap_append, hf, hfs, List.filterMap_cons]
    cases f.message? config.legacyKinds <;> rfl

/-- Besides the chunk handler's call and what the stream found, a chunk has the effects of the
frames that come out of it. -/
theorem filterMap_ingest {β : Type} (r : Receiver H) (chunk : Chunk) {f : Effect H → Option β}
    (hseen : ∀ h, f (.chunkHandlerCalled h chunk) = none)
    (hfound : ∀ diagnostic, f (.found chunk diagnostic) = none) :
    (r.ingest chunk).2.filterMap f =
      (deliverAll r.config chunk.sequence (r.registry.lookAt chunk).1
        (r.stream.intake chunk.intake).2.frames).2.filterMap f := by
  have hnone {α : Type} {e : α → Effect H} (he : ∀ a, f (e a) = none) (as : List α) :
      (as.map e).filterMap f = [] := by
    rw [List.filterMap_map]
    exact List.filterMap_eq_nil_iff.mpr fun a _ => he a
  unfold ingest
  rw [List.filterMap_append, List.filterMap_append, hnone hseen, hnone hfound]
  rfl

/-- **A chunk brings the messages of the frames that come out of it**, and nobody's
subscription changes. -/
theorem ingest_passive (r : Receiver H) (h : r.registry.Passive) (chunk : Chunk) :
    (r.ingest chunk).1.stream = (r.stream.intake chunk.intake).1 ∧
      (r.ingest chunk).1.registry.Passive ∧ (r.ingest chunk).1.config = r.config ∧
      (r.ingest chunk).2.filterMap Effect.heard? =
        (r.stream.intake chunk.intake).2.frames.filterMap
          (Frame.message? r.config.legacyKinds) := by
  obtain ⟨hr, hf⟩ := deliverAll_passive r.config chunk.sequence
    (r.stream.intake chunk.intake).2.frames (h.lookAt chunk)
  exact ⟨rfl, hr, rfl, (r.filterMap_ingest chunk (fun _ => rfl) fun _ => rfl).trans hf⟩

end Receiver

end Log
end FlightLink
