/-
# A log stream with a buffer

The stream of `Stream` with the bytes that it keeps in one buffer, apart from the state that
says what they are. Nothing ties the two together: whatever changes the state has to see to the
buffer. Giving a message up does so in one place (`ByteStream.resync`), which gives the rest of
the file header up too; bytes that continue no message, and bytes left over behind one, do so on
their own. A call cuts the buffer and the chunk, and fails at a cut past their end.

Key definitions: `ByteStream`, `ByteStream.resync`, `ByteStream.step?`, `ByteStream.drive?`,
`ByteStream.complete?`, `ByteStream.realign`, `ByteStream.place?`, `ByteStream.ingest?`.
Key theorems: `ByteStream.work_step?`.
-/
import FlightLink.Log.Stream

namespace FlightLink
namespace Log

/-- What a stream waits for. -/
inductive ByteStream.State where
  | awaitingHeader
  /-- The payload that the header tells of. -/
  | awaitingBody (header : Header)
  /-- Lost; waiting for a chunk in which a message starts. -/
  | resync
  deriving DecidableEq, Repr

/-- A log stream that keeps its bytes in a buffer. -/
structure ByteStream where
  state : ByteStream.State
  buffer : Bytes
  /-- Bytes of the file header still to come. -/
  headerLeft : Nat
  /-- The sequence number of the last chunk that had one. -/
  lastSequence : Option UInt16
  deriving DecidableEq, Repr

namespace ByteStream

/-- The start of a stream whose file header has `fileHeader` bytes. -/
def new (fileHeader : Nat) : ByteStream := ⟨.awaitingHeader, [], fileHeader, none⟩

/-- Give up the message in progress, and the rest of the file header. -/
def resync (b : ByteStream) : ByteStream × Report :=
  ({ b with state := .resync, buffer := [], headerLeft := 0 },
    if b.buffer.isEmpty then .empty else .of (.discarded b.buffer.length))

/-- Some byte of a message has been read. -/
def inProgress (b : ByteStream) : Bool :=
  match b.state with
  | .awaitingBody _ => true
  | _ => !b.buffer.isEmpty

/-! ### Reading the buffer -/

/-- What has been read. -/
inductive Step where
  | header
  | frame
  /-- Nothing, or a header that no message has. -/
  | stalled
  deriving DecidableEq, Repr

/-- Read a header or a payload off the buffer, whichever is next. -/
def step? (b : ByteStream) : Option (Step × ByteStream × Report) :=
  match b.state with
  | .awaitingHeader =>
    match Header.read? b.buffer with
    | none => some (.stalled, b, .empty)
    | some (header, _) =>
      if header.credible then do
        let (_, rest) ← b.buffer.cut? Header.length
        return (.header, { b with state := .awaitingBody header, buffer := rest }, .empty)
      else
        let (lost, report) := b.resync
        some (.stalled, lost, .of (.invalidHeader header.tag header.size) ++ report)
  | .awaitingBody header =>
    if b.buffer.length < header.size.toNat then some (.stalled, b, .empty)
    else do
      let (payload, rest) ← b.buffer.cut? header.size.toNat
      return (.frame, { b with state := .awaitingHeader, buffer := rest },
        ⟨[⟨header.tag, payload⟩], []⟩)
  | .resync => some (.stalled, b, .empty)

/-- How much there is to read: a header takes three bytes, and behind a header the payload may
have none. -/
def work (b : ByteStream) : Nat :=
  2 * b.buffer.length +
    match b.state with
    | .awaitingBody _ => 1
    | _ => 0

/-- There is less to read behind what has been read. -/
theorem work_step? {b next : ByteStream} {step : Step} {report : Report}
    (h : b.step? = some (step, next, report)) (hs : step ≠ .stalled) : next.work < b.work := by
  unfold step? at h
  split at h
  · rename_i hstate
    split at h
    · cases h
      exact absurd rfl hs
    · split at h
      · obtain ⟨⟨front, rest⟩, hcut, heq⟩ := Option.bind_eq_some_iff.mp h
        cases heq
        obtain ⟨hle, hrest⟩ := Bytes.le_of_cut? hcut
        have hpos : 0 < Header.length := by decide
        simp only [work, hstate, hrest]
        omega
      · cases h
        exact absurd rfl hs
  · rename_i hstate
    split at h
    · cases h
      exact absurd rfl hs
    · obtain ⟨⟨front, rest⟩, hcut, heq⟩ := Option.bind_eq_some_iff.mp h
      cases heq
      obtain ⟨hle, hrest⟩ := Bytes.le_of_cut? hcut
      simp only [work, hstate, hrest]
      omega
  · cases h
    exact absurd rfl hs

/-- Read until nothing more can be read. -/
def drive? (b : ByteStream) : Option (ByteStream × Report) :=
  match _h : b.step? with
  | none => none
  | some (step, next, report) =>
    if _hs : step = .stalled then some (next, report)
    else do
      let (last, more) ← drive? next
      return (last, report ++ more)
termination_by b.work
decreasing_by exact work_step? _h _hs

/-- Read on to the end of the message in progress and no further; whether its end was found. -/
def finish? (b : ByteStream) : Option (Bool × ByteStream × Report) :=
  match _h : b.step? with
  | none => none
  | some (.frame, next, report) => some (true, next, report)
  | some (.stalled, next, report) => some (false, next, report)
  | some (.header, next, report) => do
    let (found, last, more) ← finish? next
    return (found, last, report ++ more)
termination_by b.work
decreasing_by exact work_step? _h Step.noConfusion

/-! ### The bytes of a chunk -/

/-- Take in bytes that can only complete the message in progress. -/
def complete? (b : ByteStream) (bytes : Bytes) : Option (ByteStream × Report) :=
  if bytes.isEmpty then some (b, .empty)
  else if b.inProgress then do
    let (found, next, report) ← { b with buffer := b.buffer ++ bytes }.finish?
    if found && !next.buffer.isEmpty then
      return ({ next with state := .resync, buffer := [] },
        report ++ .of (.misaligned next.buffer.length))
    else return (next, report)
  else some ({ b with state := .resync }, .of (.orphanContinuation bytes.length))

/-- A message starts here, so that one still in progress cannot be completed. -/
def realign (b : ByteStream) : ByteStream × Report :=
  let header := match b.state with
    | .awaitingBody _ => Header.length
    | _ => 0
  ({ b with state := .awaitingHeader, buffer := [] },
    if b.state ≠ .resync && b.inProgress then .of (.misaligned (b.buffer.length + header))
    else .empty)

/-- Take in the bytes in front of the first message start of a chunk. -/
def lead? (b : ByteStream) (front : Bytes) (start : Option Bytes) : Option (ByteStream × Report) :=
  if b.state = .resync then
    some (b, .of (if start.isNone then .discarded front.length else .resynchronized front.length))
  else b.complete? front

/-- Take in the bytes in front of the first message start of a chunk, and those from it on. -/
def place? (b : ByteStream) (front : Bytes) (start : Option Bytes) :
    Option (ByteStream × Report) := do
  let (before, lead) ← b.lead? front start
  match start with
  | none => return (before, lead)
  | some bytes =>
    let (aligned, lost) := before.realign
    let (after, report) ← { aligned with buffer := aligned.buffer ++ bytes }.drive?
    return (after, lead ++ (lost ++ report))

/-- Take in bytes behind the file header. -/
def takeIn? (b : ByteStream) (data : Bytes) : Option Nat → Option (ByteStream × Report)
  | none => b.place? data none
  | some offset => do
    let (front, rest) ← data.cut? offset
    b.place? front (some rest)

/-! ### A chunk -/

/-- Take in bytes of which the first may still belong to the file header. The first message
starts right behind it. -/
def stripHeader? (b : ByteStream) (data : Bytes) (offset : Option Nat) :
    Option (ByteStream × Report) :=
  if b.headerLeft = 0 then b.takeIn? data offset
  else do
    let length := min b.headerLeft data.length
    let (_, rest) ← data.cut? length
    let stripped : Report := if length = 0 then .empty else .of (.fileHeaderStripped length)
    let b := { b with headerLeft := b.headerLeft - length }
    if b.headerLeft = 0 then
      let (b, report) ← b.takeIn? rest (some (offset.getD 0 - length))
      return (b, stripped ++ report)
    else return (b, stripped)

/-- Take in a chunk that is no duplicate. -/
def accept? (b : ByteStream) (data : Bytes) (hint : UInt8) : Option (ByteStream × Report) :=
  match Hint.ofByte hint data.length with
  | .pastEnd =>
    let (lost, report) := b.resync
    some (lost, .of (.invalidOffset hint data.length) ++ report)
  | .start offset => b.stripHeader? data (some offset)
  | .noStart => b.stripHeader? data none

/-- Take in a chunk: its bytes, its hint and, if it has one, its sequence number. -/
def ingest? (b : ByteStream) (data : Bytes) (hint : UInt8) (sequence : Option UInt16) :
    Option (ByteStream × Report) :=
  match sequence, b.lastSequence with
  | some actual, some last =>
    if actual = last then some (b, .of (.duplicateChunk actual))
    else if actual = last + 1 then { b with lastSequence := some actual }.accept? data hint
    else do
      let (lost, dropped) := b.resync
      let (after, report) ← { lost with lastSequence := some actual }.accept? data hint
      return (after, .of (.missingChunks (last + 1) actual) ++ dropped ++ report)
  | some actual, none => { b with lastSequence := some actual }.accept? data hint
  | none, _ => b.accept? data hint

end ByteStream

end Log
end FlightLink
