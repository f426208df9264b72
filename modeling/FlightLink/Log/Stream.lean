/-
# Putting log messages together from chunks

A logger sends its log as a byte stream cut into chunks. A chunk carries a
sequence number and a hint: the offset of the first message start in it, if a
message starts in it at all. Bytes in front of that offset can only complete the
message in progress; from the offset on, messages follow one another. When
bytes and hints disagree, everything up to the next known start is dropped.

The stream begins with a file header, which holds no message and is taken off
first. A gap in the sequence numbers, or a hint past the end of its chunk, means that
track is lost, and the rest of the file header with it.

Key definitions: `Stream`, `Stream.arrival`, `Hint`, `Stream.ingest`.
Key theorems: `Stream.stripHeader_within`, `Stream.stripHeader_completes`,
`Stream.ingest_duplicate`.
-/
import FlightLink.Log.Phase
import FlightLink.Wire.Payload

namespace FlightLink
namespace Log

/-- Length of a log file's header: magic, version and start time. -/
def fileHeaderLength : Nat := 16

/-- A log stream. -/
structure Stream where
  /-- Bytes of the file header still to come. -/
  headerLeft : Nat
  /-- The sequence number of the last chunk that had one. -/
  lastSequence : Option UInt16
  phase : Phase
  deriving DecidableEq, Repr

/-- What a sequence number tells about a chunk. -/
inductive Arrival where
  | duplicate (sequence : UInt16)
  | gap (expected actual : UInt16)
  | inOrder
  deriving DecidableEq, Repr

/-- Where the first message starts, by the hint of a chunk. -/
inductive Hint where
  | noStart
  | start (offset : Nat)
  | pastEnd
  deriving DecidableEq, Repr

/-- What the hint byte of a chunk of `length` bytes means. -/
def Hint.ofByte (hint : UInt8) (length : Nat) : Hint :=
  if hint = Wire.LogData.noMessageStart then .noStart
  else if hint.toNat ≤ length then .start hint.toNat
  else .pastEnd

namespace Stream

/-- The start of a stream whose file header has `fileHeader` bytes. -/
def new (fileHeader : Nat) : Stream := ⟨fileHeader, none, .fresh⟩

/-- Bytes kept for the message in progress. -/
def buffered (s : Stream) : Nat := s.phase.buffered

/-- What the sequence number of the next chunk tells. -/
def arrival (s : Stream) (sequence : Option UInt16) : Arrival :=
  match s.lastSequence, sequence with
  | some last, some actual =>
    if actual = last then .duplicate actual
    else if actual = last + 1 then .inOrder
    else .gap (last + 1) actual
  | _, _ => .inOrder

/-- Give up the message in progress. The file header can only be at the start of a
stream, so it is given up too. -/
def loseTrack (s : Stream) : Stream := { s with headerLeft := 0, phase := .resync }

/-- Take in bytes behind the file header. -/
def takeIn (s : Stream) (data : Bytes) (offset : Option Nat) : Stream × Report :=
  let (phase, report) := s.phase.ingest data offset
  ({ s with phase }, report)

/-- Take in bytes of which the first may still belong to the file header. The first
message starts right behind it. -/
def stripHeader (s : Stream) (data : Bytes) (offset : Option Nat) : Stream × Report :=
  if s.headerLeft = 0 then s.takeIn data offset
  else
    let length := min s.headerLeft data.length
    let stripped : Report := if length = 0 then .empty else .of (.fileHeaderStripped length)
    let s := { s with headerLeft := s.headerLeft - length }
    if s.headerLeft = 0 then
      let (s, report) := s.takeIn (data.drop length) (some (offset.getD 0 - length))
      (s, stripped ++ report)
    else (s, stripped)

/-- Take in a chunk that is no duplicate. -/
def accept (s : Stream) (data : Bytes) (hint : UInt8) : Stream × Report :=
  match Hint.ofByte hint data.length with
  | .pastEnd => (s.loseTrack, ⟨[], .invalidOffset hint data.length :: s.phase.dropped⟩)
  | .start offset => s.stripHeader data (some offset)
  | .noStart => s.stripHeader data none

/-- Take in a chunk: its bytes, its hint and, if it has one, its sequence number. -/
def ingest (s : Stream) (data : Bytes) (hint : UInt8) (sequence : Option UInt16) :
    Stream × Report :=
  match s.arrival sequence with
  | .duplicate again => (s, .of (.duplicateChunk again))
  | .gap expected actual =>
    let lost : Report := ⟨[], .missingChunks expected actual :: s.phase.dropped⟩
    let (s, report) := { s.loseTrack with lastSequence := sequence }.accept data hint
    (s, lost ++ report)
  | .inOrder => { s with lastSequence := sequence.or s.lastSequence }.accept data hint

/-! ### Taking the file header off -/

/-- Behind the file header nothing is taken off. -/
theorem stripHeader_behind {s : Stream} (h : s.headerLeft = 0) (data : Bytes)
    (offset : Option Nat) : s.stripHeader data offset = s.takeIn data offset := by
  rw [stripHeader, if_pos h]

/-- All of a chunk within the file header is taken off. -/
theorem stripHeader_within {s : Stream} {data : Bytes} (h : data.length < s.headerLeft)
    (offset : Option Nat) :
    s.stripHeader data offset = ({ s with headerLeft := s.headerLeft - data.length },
      if data.length = 0 then .empty else .of (.fileHeaderStripped data.length)) := by
  have hmin : min s.headerLeft data.length = data.length := Nat.min_eq_right (Nat.le_of_lt h)
  have hleft : ¬ s.headerLeft - data.length = 0 := by omega
  unfold stripHeader
  rw [if_neg (Nat.ne_of_gt (Nat.zero_lt_of_lt h))]
  simp only [hmin, if_neg hleft]

/-- In the chunk that completes the file header a message starts behind it. -/
theorem stripHeader_completes {s : Stream} {data : Bytes} (hpos : 0 < s.headerLeft)
    (hle : s.headerLeft ≤ data.length) (offset : Option Nat) :
    s.stripHeader data offset =
      (({ s with headerLeft := 0 }.takeIn (data.drop s.headerLeft)
          (some (offset.getD 0 - s.headerLeft))).1,
        .of (.fileHeaderStripped s.headerLeft) ++
          ({ s with headerLeft := 0 }.takeIn (data.drop s.headerLeft)
            (some (offset.getD 0 - s.headerLeft))).2) := by
  have hmin : min s.headerLeft data.length = s.headerLeft := Nat.min_eq_left hle
  have hne : ¬ s.headerLeft = 0 := Nat.ne_of_gt hpos
  unfold stripHeader
  rw [if_neg hne]
  simp only [hmin, Nat.sub_self, if_neg hne, if_pos]

/-! ### Refusing chunks -/

/-- A chunk delivered again changes nothing. -/
theorem ingest_duplicate {s : Stream} {sequence : UInt16} (h : s.lastSequence = some sequence)
    (data : Bytes) (hint : UInt8) :
    s.ingest data hint (some sequence) = (s, .of (.duplicateChunk sequence)) := by
  simp [ingest, arrival, h]

end Stream

end Log
end FlightLink
