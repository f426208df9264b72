/-
# From the wire to the handlers

A recording is sent chunk by chunk as payloads, to be acknowledged or not, with trailing
zeros left out or not, each chunk once or several times in a row. A session that reads and
handles these payloads calls its handlers with the messages of the recording's frames, in
order and once each (`Session.heard_recording`). What a frame without message costs is that
frame.

Key definitions: `Packet`, `Session.receiveAll`, `Log.Recording.Posting`,
`Session.listening`.
Key theorems: `Session.receiveAll_postings`, `Session.heard_recording`.
-/
import FlightLink.Proofs.Log.Codec
import FlightLink.Proofs.Log.Delivery
import FlightLink.Proofs.Log.Reassembly
import FlightLink.Proofs.Wire.Payload
import FlightLink.Session

namespace FlightLink

/-- A payload as it arrives. -/
structure Packet where
  clock : Clock.Manual
  sender : Wire.Identity
  id : Wire.MessageId
  payload : Bytes
  deriving DecidableEq, Repr

/-- The message that a handler was called with. -/
def Effect.heard? {H : Type} : Effect H → Option Log.Message
  | log e => e.heard?
  | _ => none

/-- Read and handle payloads as they arrive, until one cannot be read. -/
def Session.receiveAll {H : Type} [Log.Reactive H] :
    Session H → List Packet → Except Fault (Session H × List (Effect H))
  | s, [] => .ok (s, [])
  | s, a :: packets => do
    let m ← Wire.Inbound.read a.id a.payload
    let (next, first) := s.handle a.clock a.sender m
    let (last, later) ← next.receiveAll packets
    return (last, first ++ later)

/-- A new session in which the subscribers are those of a registry. -/
def Session.listening {H : Type} [Log.Reactive H] (settings : Clock.Settings)
    (config : Log.StreamConfig) (registry : Log.Registry H) : Session H :=
  ⟨.new settings, (Log.Receiver.new config).mapRegistry fun _ => registry⟩

namespace Log

open Log.Frame

namespace Recording

variable (r : Recording)

/-- Chunk number `i` as log data for a node. -/
def logData (i : Nat) (target : Wire.Identity) : Wire.LogData where
  sequence := r.sequence i
  target := target
  firstMessageOffset := (r.chunk i).hint
  data := (r.chunk i).data

/-- One sending of a chunk. -/
structure Posting where
  /-- The number of the chunk. -/
  number : Nat
  target : Wire.Identity
  sender : Wire.Identity
  /-- The sender waits for an acknowledgement. -/
  acked : Bool
  /-- The receiver's clock when it arrives. -/
  clock : Clock.Manual
  payload : Bytes
  /-- How many zeros were left out behind the payload. -/
  zeros : Nat
  written : (r.logData number target).write = .ok (payload ++ List.replicate zeros 0)

variable {r}

/-- A posting as its receiver gets it. -/
def Posting.packet (p : r.Posting) : Packet where
  clock := p.clock
  sender := p.sender
  id := if p.acked then Wire.LogData.ackedId else Wire.LogData.id
  payload := p.payload

/-- A posting as the message it is read as. -/
def Posting.inbound (p : r.Posting) : Wire.Inbound :=
  if p.acked then .logDataAcked (r.logData p.number p.target)
  else .logData (r.logData p.number p.target)

/-- A posting is read as the log data that was sent. -/
theorem Posting.read_packet (p : r.Posting) :
    Wire.Inbound.read p.packet.id p.packet.payload = .ok p.inbound := by
  have hr : Wire.LogData.read p.payload = r.logData p.number p.target :=
    Wire.LogData.read_write p.written
  unfold Posting.packet Posting.inbound
  rw [← hr]
  cases p.acked <;> rfl

/-- When all chunks have come all frames have. -/
theorem framesIn_all (r : Recording) : r.framesIn 0 (r.offset r.pieces.length) = r.frames := by
  have ho : r.offset r.pieces.length = r.bytes.length := by
    rw [offset, List.take_length, flatten_pieces]
  have he : r.ended r.bytes.length = r.frames.length := by
    refine Nat.le_antisymm (r.ended_le_length _) (r.le_ended (Nat.le_refl _) ?_)
    rw [length_bytes]
  rw [framesIn_zero, ho, he, List.take_length]

end Recording

/-! ### Frames of messages -/

/-- The frame of a message stands for it, unless its kind is left out. -/
theorem message?_frame {m : Message} {f : Frame} (h : m.frame = .ok f) (legacy : Bool) :
    f.message? legacy = if legacy && m.kind.newer then none else some m := by
  obtain ⟨ht, -, hr⟩ := Message.read_frame h
  unfold Frame.message?
  rw [ht, Kind.ofTag?_tag]
  dsimp only
  rw [hr]
  rfl

/-- Frames that were written from messages stand for these. -/
theorem filterMap_message? (legacy : Bool) : ∀ (frames : List Frame) (ms : List Message),
    (∀ f ∈ frames, f.Proper) →
    ms.map Message.write = frames.map (fun f => .ok f.toBytes) →
    frames.filterMap (Frame.message? legacy) = ms.filter fun m => !(legacy && m.kind.newer)
  | [], [], _, _ => rfl
  | f :: frames, m :: ms, hp, h => by
    rw [List.map_cons, List.map_cons, List.cons.injEq] at h
    obtain ⟨g, hg, hgp, hb⟩ := Message.frame_of_write h.1
    have hf : f.Proper := hp f (List.mem_cons_self ..)
    have hgf : g = f := hgp.eq_of_toBytes hf hb
    have ih := filterMap_message? legacy frames ms
      (fun f hm => hp f (List.mem_cons_of_mem _ hm)) h.2
    rw [hgf] at hg
    rw [List.filterMap_cons, message?_frame hg, ih, List.filter_cons]
    cases legacy && m.kind.newer <;> rfl

end Log

namespace Session

open Log

variable {H : Type} [Reactive H] {r : Recording}

/-- Of a chunk only the log engine's effects call handlers. -/
theorem heard_receive (s : Session H) (chunk : Chunk) (reliable : Bool) :
    (s.receive chunk reliable).2.filterMap Effect.heard? =
      (s.log.ingest chunk).2.filterMap Log.Effect.heard? := by
  have hlog : ∀ effects : List (Log.Effect H),
      (effects.map Effect.log).filterMap Effect.heard? = effects.filterMap Log.Effect.heard? := by
    intro effects
    rw [List.filterMap_map]
    rfl
  have hack : ∀ acks : List Wire.LogAck,
      (acks.map (Effect.acknowledge : Wire.LogAck → Effect H)).filterMap Effect.heard? = [] := by
    intro acks
    rw [List.filterMap_map]
    exact List.filterMap_eq_nil_iff.mpr fun _ _ => rfl
  unfold receive ingest
  rw [List.filterMap_append, hlog, hack, List.append_nil]

/-- Handling a posting is receiving its chunk. -/
theorem handle_posting (s : Session H) (p : r.Posting) :
    s.handle p.clock p.sender p.inbound =
      ((s.receive (.ofLogData p.sender (r.logData p.number p.target)) p.acked).1,
        .handling p.sender p.inbound.id ::
          (s.receive (.ofLogData p.sender (r.logData p.number p.target)) p.acked).2) := by
  unfold Recording.Posting.inbound handle
  cases p.acked <;> rfl

theorem handle_passive (s : Session H) (h : s.log.registry.Passive) (p : r.Posting) :
    (s.handle p.clock p.sender p.inbound).1.log.stream =
        (s.log.stream.intake (r.chunk p.number)).1 ∧
      (s.handle p.clock p.sender p.inbound).1.log.registry.Passive ∧
      (s.handle p.clock p.sender p.inbound).1.log.config = s.log.config ∧
      (s.handle p.clock p.sender p.inbound).2.filterMap Effect.heard? =
        (s.log.stream.intake (r.chunk p.number)).2.frames.filterMap
          (Frame.message? s.log.config.legacyKinds) := by
  obtain ⟨hs, hr, hc, hf⟩ :=
    s.log.ingest_passive h (.ofLogData p.sender (r.logData p.number p.target))
  rw [handle_posting]
  refine ⟨hs, hr, hc, ?_⟩
  rw [List.filterMap_cons, heard_receive, hf]
  rfl

/-- **What postings bring are the messages of the frames that come out of their chunks.** -/
theorem receiveAll_postings : ∀ (postings : List r.Posting) (s : Session H),
    s.log.registry.Passive → ∃ t effects,
      s.receiveAll (postings.map Recording.Posting.packet) = .ok (t, effects) ∧
      effects.filterMap Effect.heard? =
        (s.log.stream.emitted ((postings.map (·.number)).map r.chunk)).filterMap
          (Frame.message? s.log.config.legacyKinds)
  | [], s, _ => ⟨s, [], rfl, rfl⟩
  | p :: postings, s, h => by
    obtain ⟨hs, hr, hc, hf⟩ := s.handle_passive h p
    obtain ⟨t, effects, ht, he⟩ :=
      receiveAll_postings postings (s.handle p.clock p.sender p.inbound).1 hr
    refine ⟨t, (s.handle p.clock p.sender p.inbound).2 ++ effects, ?_, ?_⟩
    · rw [List.map_cons]
      unfold receiveAll
      rw [p.read_packet]
      show (do
        let (last, later) ← (s.handle p.clock p.sender p.inbound).1.receiveAll
          (postings.map Recording.Posting.packet)
        return (last, (s.handle p.clock p.sender p.inbound).2 ++ later)) = _
      rw [ht]
      rfl
    · rw [List.filterMap_append, hf, he, hs, hc, List.map_cons, List.map_cons,
        Stream.emitted_cons, List.filterMap_append]

/-- **The handlers of a session are called with the messages of a recording's frames, in
order and once each**, however it was cut and sent. -/
theorem heard_recording (r : Recording) (again : Nat → Nat) (postings : List r.Posting)
    (ho : postings.map (·.number) = r.inTurn again) (settings : Clock.Settings) (legacy : Bool)
    (registry : Registry H) (hp : registry.Passive) :
    ∃ t effects, (listening settings ⟨r.header.length, legacy⟩ registry).receiveAll
        (postings.map Recording.Posting.packet) = .ok (t, effects) ∧
      effects.filterMap Effect.heard? = r.frames.filterMap (Frame.message? legacy) ∧
      ∀ ms : List Message, ms.map Message.write = r.frames.map (fun f => .ok f.toBytes) →
        effects.filterMap Effect.heard? = ms.filter fun m => !(legacy && m.kind.newer) := by
  obtain ⟨t, effects, ht, he⟩ := receiveAll_postings postings
    (listening settings ⟨r.header.length, legacy⟩ registry) hp
  have hall : effects.filterMap Effect.heard? = r.frames.filterMap (Frame.message? legacy) := by
    calc effects.filterMap Effect.heard?
        = ((Stream.new r.header.length).emitted ((r.inTurn again).map r.chunk)).filterMap
            (Frame.message? legacy) := by
          rw [he, ho]
          rfl
      _ = (r.framesIn 0 (r.offset r.pieces.length)).filterMap (Frame.message? legacy) := by
          rw [r.emitted_order (r.destutter_inTurn again)]
      _ = r.frames.filterMap (Frame.message? legacy) := by rw [r.framesIn_all]
  exact ⟨t, effects, ht, hall, fun ms hm =>
    hall.trans (filterMap_message? legacy r.frames ms r.proper hm)⟩

/-- A handler that changes nothing and remembers the messages that it gets. -/
structure Recorder where
  deriving DecidableEq, Repr

instance : Reactive Recorder where
  Memory := List Message
  initial := []
  react
    | _, .message m, _, heard => ([], heard ++ [m])
    | _, .chunk _, _, heard => ([], heard)

theorem quiet_recorder (h : Recorder) : Reactive.Quiet h := fun cue _ _ => by
  cases cue <;> rfl

/-- A recorder has the messages of each kind, and looks at the chunks besides. -/
def recording : Registry Recorder :=
  ⟨fun kind => some (.typed kind Recorder.mk), [], some Recorder.mk, []⟩

/-- One chunk of the small recording. -/
def smallPosting (number : Nat) (acked : Bool) (payload : Bytes) (zeros : Nat)
    (h : (Recording.small.logData number ⟨1, 1⟩).write = .ok (payload ++ List.replicate zeros 0)) :
    Recording.small.Posting :=
  ⟨number, ⟨1, 1⟩, ⟨1, 1⟩, acked, ⟨0, 0⟩, payload, zeros, h⟩

/-- The small recording, its first chunk sent twice and once to be acknowledged. -/
def smallPostings : List Recording.small.Posting :=
  let head : Bytes := [255, 255, 1, 1, 9, 1, 9, 2, 0, 79, 7, 0, 3, 0, 67]
  [smallPosting 0 true head 240 (by decide +kernel),
    smallPosting 0 false head 240 (by decide +kernel),
    smallPosting 1 false [0, 0, 1, 1, 1, 255, 3] 248 (by decide +kernel),
    smallPosting 2 true [1, 0, 1, 1, 7, 2, 4, 5, 2, 0, 82, 1, 2] 242 (by decide +kernel)]

/-- Of a dropout, a frame of no known kind and a message left out the dropout is heard. -/
theorem heard_recording_small :
    ∃ t effects, (listening {} ⟨1, true⟩ recording).receiveAll
        (smallPostings.map Recording.Posting.packet) = .ok (t, effects) ∧
      effects.filterMap Effect.heard? = [.dropout 7] := by
  have hpassive : recording.Passive :=
    ⟨fun _ => ⟨Recorder.mk, quiet_recorder _, .inr rfl⟩, fun h _ => quiet_recorder h⟩
  obtain ⟨t, effects, ht, he, -⟩ := heard_recording Recording.small
    (fun i => if i = 0 then 1 else 0) smallPostings rfl {} true recording hpassive
  exact ⟨t, effects, ht, he⟩

end Session

end FlightLink
