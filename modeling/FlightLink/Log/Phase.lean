/-
# The message in progress

A log stream is in one of three phases, and a phase holds the bytes of the message
in progress. `Phase.step` reads one header or one payload from them. From a known
message start on, `Phase.readAll` repeats it until nothing more can be read, so what it
does depends on the bytes alone. In front of a known start only the message in
progress can be completed (`Phase.complete`). What is dropped, and why, is in the
report.

Key definitions: `Report`, `Phase`, `Phase.step`, `Phase.readAll`, `Phase.readOne`,
`Phase.complete`, `Phase.restart`, `Phase.ingest`.
Key theorems: `Phase.step_header`, `Phase.step_frame`, `Phase.drive_frame`,
`Phase.drive_stalled`.
-/
import FlightLink.Log.Diagnostic
import FlightLink.Log.Frame

namespace FlightLink
namespace Log

/-- What came out of some stream bytes. -/
structure Report where
  frames : List Frame
  diagnostics : List Diagnostic
  deriving DecidableEq, Repr

namespace Report

/-- Nothing came out. -/
def empty : Report := ⟨[], []⟩

/-- One thing was found. -/
def of (diagnostic : Diagnostic) : Report := ⟨[], [diagnostic]⟩

/-- One report after the other. -/
def append (r s : Report) : Report := ⟨r.frames ++ s.frames, r.diagnostics ++ s.diagnostics⟩

instance : Append Report := ⟨append⟩

@[simp] theorem frames_append (r s : Report) : (r ++ s).frames = r.frames ++ s.frames := rfl

@[simp] theorem diagnostics_append (r s : Report) :
    (r ++ s).diagnostics = r.diagnostics ++ s.diagnostics := rfl

end Report

/-! ### Phases -/

/-- How far the message in progress has come. -/
inductive Phase where
  /-- At a message start, holding what there is of the header. -/
  | awaitingHeader (pending : Bytes)
  /-- After a header, holding what there is of the payload. -/
  | awaitingBody (header : Header) (body : Bytes)
  /-- Lost; waiting for a chunk in which a message starts. -/
  | resync
  deriving DecidableEq, Repr

namespace Phase

/-- At a message start, with nothing read yet. -/
def fresh : Phase := awaitingHeader []

/-- Bytes kept for the message in progress, a header already read not among them. -/
def buffered : Phase → Nat
  | awaitingHeader pending => pending.length
  | awaitingBody _ body => body.length
  | resync => 0

/-- Bytes taken in for the message in progress, its header among them. -/
def held : Phase → Nat
  | awaitingHeader pending => pending.length
  | awaitingBody _ body => Header.length + body.length
  | resync => 0

/-- Some byte of a message has been read. -/
def inProgress : Phase → Bool
  | awaitingHeader pending => !pending.isEmpty
  | awaitingBody _ _ => true
  | resync => false

/-- The phase with more bytes to read. -/
def feed (phase : Phase) (bytes : Bytes) : Phase :=
  match phase with
  | awaitingHeader pending => awaitingHeader (pending ++ bytes)
  | awaitingBody header body => awaitingBody header (body ++ bytes)
  | resync => resync

/-- What can be read at once. -/
inductive Step where
  /-- A header; its payload is to be read next. -/
  | header (next : Phase)
  /-- A payload, which completes a frame. -/
  | frame (frame : Frame) (next : Phase)
  /-- A header that no message has. -/
  | bogus (header : Header)
  /-- Nothing without more bytes. -/
  | stalled

/-- Read a header or a payload, whichever is next. -/
def step : Phase → Step
  | awaitingHeader pending =>
    match Header.read? pending with
    | none => .stalled
    | some (header, rest) =>
      if header.credible then .header (awaitingBody header rest) else .bogus header
  | awaitingBody header body =>
    let payload := body.take header.size.toNat
    if payload.length < header.size.toNat then .stalled
    else .frame ⟨header.tag, payload⟩ (awaitingHeader (body.drop header.size.toNat))
  | resync => .stalled

/-- What is reported when track is lost: the bytes kept so far, if there are any. -/
def dropped (phase : Phase) : List Diagnostic :=
  if phase.buffered = 0 then [] else [.discarded phase.buffered]

/-- The report of a header that no message has, found at the front of `phase`. -/
def refused (phase : Phase) (header : Header) : Report :=
  ⟨[], .invalidHeader header.tag header.size :: phase.dropped⟩

/-- Read on for at most so many steps. -/
def drive : Nat → Phase → Phase × Report
  | 0, phase => (phase, .empty)
  | steps + 1, phase =>
    match phase.step with
    | .header next => drive steps next
    | .frame frame next =>
      let (last, report) := drive steps next
      (last, ⟨[frame], []⟩ ++ report)
    | .bogus header => (resync, phase.refused header)
    | .stalled => (phase, .empty)

/-- Enough steps to read all there is: a header takes three bytes and a payload
follows a header. -/
def stepsToRead (phase : Phase) : Nat := 2 * phase.buffered + 2

/-- Read all messages that follow one another. -/
def readAll (phase : Phase) : Phase × Report := drive phase.stepsToRead phase

/-- Read on to the end of the message in progress and no further. -/
def readOne (phase : Phase) : Option Frame × Phase × Report :=
  match phase.step with
  | .header body =>
    match body.step with
    | .frame frame next => (some frame, next, .empty)
    | _ => (none, body, .empty)
  | .frame frame next => (some frame, next, .empty)
  | .bogus header => (none, resync, phase.refused header)
  | .stalled => (none, phase, .empty)

/-! ### The two parts of a chunk -/

/-- Take in bytes in front of the first message start. They complete the message in
progress, at most; what is left over then belongs to no message. -/
def complete (phase : Phase) (bytes : Bytes) : Phase × Report :=
  if bytes.isEmpty then (phase, .empty)
  else if phase.inProgress then
    match (phase.feed bytes).readOne with
    | (none, next, report) => (next, report)
    | (some frame, next, report) =>
      if next.buffered = 0 then (next, ⟨[frame], []⟩ ++ report)
      else (resync, ⟨[frame], []⟩ ++ report ++ .of (.misaligned next.buffered))
  else (resync, .of (.orphanContinuation bytes.length))

/-- Take in bytes from a message start on. A message still in progress cannot be
completed any more. -/
def restart (phase : Phase) (bytes : Bytes) : Phase × Report :=
  let (next, report) := (fresh.feed bytes).readAll
  (next, (if phase.inProgress then .of (.misaligned phase.held) else .empty) ++ report)

/-- Take in the bytes of a chunk in which no message starts. -/
def continueWith (phase : Phase) (bytes : Bytes) : Phase × Report :=
  if phase = resync then (resync, .of (.discarded bytes.length)) else phase.complete bytes

/-- Take in the bytes of a chunk in front of a message start in it. -/
def leadUp (phase : Phase) (bytes : Bytes) : Phase × Report :=
  if phase = resync then (resync, .of (.resynchronized bytes.length)) else phase.complete bytes

/-- Take in the bytes of a chunk, with the offset of the first message start. -/
def ingest (phase : Phase) (bytes : Bytes) : Option Nat → Phase × Report
  | none => phase.continueWith bytes
  | some offset =>
    let (before, lead) := phase.leadUp (bytes.take offset)
    let (after, report) := before.restart (bytes.drop offset)
    (after, lead ++ report)

/-! ### Reading what was written -/

theorem step_header {header : Header} (h : header.credible = true) (rest : Bytes) :
    step (awaitingHeader (header.write ++ rest)) = .header (awaitingBody header rest) := by
  simp [step, Header.read_write, h]

theorem step_frame {header : Header} {payload : Bytes} (h : payload.length = header.size.toNat)
    (rest : Bytes) :
    step (awaitingBody header (payload ++ rest)) =
      .frame ⟨header.tag, payload⟩ (awaitingHeader rest) := by
  simp [step, ← h]

theorem drive_stalled {phase : Phase} (h : phase.step = .stalled) :
    ∀ steps : Nat, drive steps phase = (phase, .empty)
  | 0 => rfl
  | _ + 1 => by simp [drive, h]

/-- A frame is read in two steps, and leaves what stands behind it. -/
theorem drive_frame {frame : Frame} (ht : frame.header.credible = true)
    (hs : frame.payload.length < UInt16.size) (rest : Bytes) (steps : Nat) :
    drive (steps + 2) (awaitingHeader (frame.toBytes ++ rest)) =
      ((drive steps (awaitingHeader rest)).1,
        ⟨[frame], []⟩ ++ (drive steps (awaitingHeader rest)).2) := by
  have hsize : frame.payload.length = frame.header.size.toNat :=
    (UInt16.toNat_ofNat_of_lt hs).symm
  have hbody : step (awaitingBody frame.header (frame.payload ++ rest)) =
      .frame frame (awaitingHeader rest) := step_frame hsize rest
  simp [drive, Frame.toBytes, step_header ht, hbody]

end Phase

end Log
end FlightLink
