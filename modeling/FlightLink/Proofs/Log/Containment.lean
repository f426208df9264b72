/-
# Chunks forged on their way

What a stream makes of the chunks of a recording when some of them are lost and some come
with other data and another hint. Whatever such chunks leave behind, a stream falls in with
the recording at the next frame that begins in a chunk that came as it is
(`Stream.Keeps.accept_contained`), and follows it as long as chunks come as they are
(`Stream.Withstands`). So no frame is lost but those of which a byte is (`Recording.contained`).

Key definitions: `Fate`, `Recording.arrived`, `Recording.Intact`, `Recording.intactFrames`,
`Stream.Completes`, `Stream.Withstands`.
Key theorems: `Stream.Keeps.accept_contained`, `Stream.Withstands.step`,
`Stream.Withstands.frames`, `Recording.contained`.
-/
import FlightLink.Proofs.Log.Call
import FlightLink.Proofs.Log.Loss

namespace FlightLink
namespace Log

open Log.Frame

/-- What becomes of a chunk on its way. -/
inductive Fate where
  /-- It comes as it is, and so many times again. -/
  | sound (again : Nat)
  | lost
  /-- It comes with other data and another hint. -/
  | forged (data : Bytes) (hint : UInt8)
  deriving DecidableEq, Repr

/-- The chunk comes as it is. -/
def Fate.isSound : Fate → Bool
  | sound _ => true
  | lost => false
  | forged _ _ => false

theorem Fate.isSound_iff {fate : Fate} : fate.isSound = true ↔ ∃ again, fate = sound again := by
  cases fate <;> simp [isSound]

namespace Recording

variable (r : Recording) (fates : Nat → Fate)

/-- What comes of chunk number `i`. -/
def arrivals (i : Nat) : List Intake :=
  match fates i with
  | .sound again => List.replicate (again + 1) (r.chunk i)
  | .lost => []
  | .forged data hint => [⟨data, hint, some (r.sequence i)⟩]

/-- What comes of so many chunks. -/
def arrived (count : Nat) : List Intake := (List.range count).flatMap (r.arrivals fates)

/-- The bytes between two places lie in chunks that come as they are. -/
def Intact (low high : Nat) : Prop :=
  ∀ x < high, low ≤ x →
    ∃ i < r.pieces.length, (fates i).isSound = true ∧ r.offset i ≤ x ∧ x < r.offset (i + 1)

instance (low high : Nat) : Decidable (r.Intact fates low high) :=
  inferInstanceAs (Decidable (∀ x < high, low ≤ x →
    ∃ i < r.pieces.length, (fates i).isSound = true ∧ r.offset i ≤ x ∧ x < r.offset (i + 1)))

/-- The frames of which all bytes lie in chunks that come as they are. -/
def intactFrames : List Frame :=
  ((Layout.placed r.header.length r.frames).filter fun x =>
    r.Intact fates x.1 (x.1 + x.2.size)).map Prod.snd

/-- Those of the frames numbered from `a` to `k`. -/
def intactIn (a k : Nat) : List Frame :=
  ((((Layout.placed r.header.length r.frames).take k).drop a).filter fun x =>
    r.Intact fates x.1 (x.1 + x.2.size)).map Prod.snd

/-! ### Intact bytes -/

variable {r fates}

theorem arrived_succ (count : Nat) :
    r.arrived fates (count + 1) = r.arrived fates count ++ r.arrivals fates count := by
  rw [arrived, List.range_succ, List.flatMap_append, List.flatMap_singleton]
  rfl

theorem Intact.mono {low high low' high' : Nat} (h : r.Intact fates low high) (hl : low ≤ low')
    (hh : high' ≤ high) : r.Intact fates low' high' := fun x hx hle =>
  h x (Nat.lt_of_lt_of_le hx hh) (Nat.le_trans hl hle)

/-- The chunk with the last of some intact bytes comes as it is. -/
theorem Intact.isSound {low high i : Nat} (h : r.Intact fates low high) (hlow : low < high)
    (hi : r.offset i < high) (hi' : high ≤ r.offset (i + 1)) : (fates i).isSound = true := by
  obtain ⟨j, -, hsound, hj, hj'⟩ := h (high - 1) (by omega) (by omega)
  rcases Nat.lt_trichotomy j i with hlt | rfl | hlt
  · have := r.offset_mono (show j + 1 ≤ i from hlt)
    omega
  · exact hsound
  · have := r.offset_mono (show i + 1 ≤ j from hlt)
    omega

/-! ### Intact frames -/

theorem intactIn_append {a k m : Nat} (ha : a ≤ k) (hk : k ≤ m) (hl : k ≤ r.frames.length) :
    r.intactIn fates a k ++ r.intactIn fates k m = r.intactIn fates a m := by
  have hlen : k ≤ (Layout.placed r.header.length r.frames).length := by
    rwa [← List.length_map Prod.snd, Layout.map_snd_placed]
  unfold intactIn
  rw [← List.map_append, ← List.filter_append, Layout.slice_append ha hk hlen]

theorem intactIn_all : r.intactIn fates 0 r.frames.length = r.intactFrames fates := by
  unfold intactIn intactFrames
  rw [List.drop_zero, List.take_of_length_le]
  rw [← List.length_map Prod.snd, Layout.map_snd_placed]

theorem intactIn_sublist (a k : Nat) :
    (r.intactIn fates a k).Sublist ((r.frames.take k).drop a) := by
  have hs := (List.filter_sublist (p := fun x => r.Intact fates x.1 (x.1 + x.2.size))
    (l := ((Layout.placed r.header.length r.frames).take k).drop a)).map Prod.snd
  rwa [List.map_drop, List.map_take, Layout.map_snd_placed] at hs

/-- No frame is intact of which a byte is not. -/
theorem intactIn_nil {a k : Nat} (h : ∀ j, a ≤ j → j < k → j < r.frames.length →
    ¬ r.Intact fates (r.start j) (r.start (j + 1))) : r.intactIn fates a k = [] := by
  unfold intactIn
  rw [List.map_eq_nil_iff, List.filter_eq_nil_iff]
  intro x hx
  obtain ⟨i, hi⟩ := List.mem_iff_getElem?.mp hx
  rw [List.getElem?_drop, List.getElem?_take, Layout.getElem?_placed] at hi
  split at hi
  · rename_i hk
    obtain ⟨f, hf, rfl⟩ := Option.map_eq_some_iff.mp hi
    obtain ⟨hlt, rfl⟩ := List.getElem?_eq_some_iff.mp hf
    have hs : r.start (a + i + 1) = r.start (a + i) + r.frames[a + i].size :=
      Layout.start_succ r.header.length hlt
    have hj := h (a + i) (by omega) hk hlt
    rw [hs] at hj
    simpa [start] using hj
  · cases hi

/-- A frame of which a byte is not intact can be left out. -/
theorem intactIn_skip {a k : Nat} (ha : a < r.frames.length)
    (h : ¬ r.Intact fates (r.start a) (r.start (a + 1))) :
    r.intactIn fates a k = r.intactIn fates (a + 1) k := by
  have hone : r.intactIn fates a (a + 1) = [] := intactIn_nil fun j hj hj' _ => by
    obtain rfl : j = a := by omega
    exact h
  rcases Nat.lt_or_ge a k with hlt | hge
  · rw [← intactIn_append (Nat.le_succ a) hlt ha, hone, List.nil_append]
  · rw [intactIn_nil fun j hj hj' => by omega, intactIn_nil fun j hj hj' => by omega]

end Recording

/-! ### One chunk that comes as it is -/

/-- A frame that has not all come is longer than what has come of it. -/
theorem Frame.Unfinished.length_lt {part bytes rest : Bytes} {f : Frame} (h : Unfinished part)
    (hf : f.Proper) (he : part ++ bytes = f.toBytes ++ rest) : part.length < f.size := by
  refine Nat.lt_of_not_le fun hle => ?_
  rw [← length_toBytes] at hle
  obtain ⟨more, rfl⟩ : f.toBytes <+: part :=
    List.prefix_of_prefix_length_le ⟨rest, he.symm⟩ (List.prefix_append part bytes) hle
  -- what has come would be read as the frame, and as none
  have hnone := Phase.readOne_unfinished h (Or.inr rfl)
  rw [Phase.readOne_frame hf more (Or.inr rfl)] at hnone
  cases hnone

namespace Stream

variable {r : Recording} {fates : Nat → Fate} {p q i : Nat} {s : Stream} {part : Bytes}

/-- The frame was in progress, and is complete with `bytes`. -/
def Completes (s : Stream) (bytes : Bytes) (f : Frame) : Prop :=
  ∃ part, part ≠ [] ∧ s.phase = .partway part ∧ part.length < f.size ∧
    f.toBytes <+: part ++ bytes

/-- What continues the frame in progress completes at most that one. -/
theorem Keeps.completes (h : s.Keeps 0 part) {bytes next : Bytes} {frames : List Frame}
    (hc : Continued part bytes next frames) :
    ∃ lead : Option Frame, frames = lead.toList ∧ ∀ f ∈ lead, s.Completes bytes f := by
  cases hc with
  | kept _ => exact ⟨none, rfl, fun f hf => nomatch hf⟩
  | dropped => exact ⟨none, rfl, fun f hf => nomatch hf⟩
  | completed f rest hp hf he =>
    obtain ⟨hu, hphase⟩ := h.phase_keeps.eq_partway hp
    refine ⟨some f, rfl, fun g hg => ?_⟩
    cases hg
    exact ⟨part, hp, hphase, hu.length_lt hf he, he ▸ List.prefix_append _ _⟩

/-- **A chunk gives the frame in progress, at most, and then the frames that lie within it; and
if one begins in it the stream follows the recording from there on.** -/
theorem Keeps.accept_contained (h : s.Keeps 0 part) (hq : q ≤ r.bytes.length)
    (hc : q - p ≤ Wire.LogData.capacity) :
    ∃ lead : Option Frame, (∀ f ∈ lead, s.Completes (r.lead p q) f) ∧
      (s.accept (r.between p q) (r.hint p q)).2.frames = lead.toList ++ r.framesIn p q ∧
      (r.begun p < r.begun q → (s.accept (r.between p q) (r.hint p q)).1.Follows r q) := by
  rw [accept_between hq hc, stripHeader, if_pos h.headerLeft_eq, takeIn]
  by_cases hs : r.begun p < r.begun q
  · obtain ⟨hp, hf⟩ := r.ingest_begun s.phase hq hs
    obtain ⟨next, -, hcont⟩ := Phase.leadUp_continued h.phase_keeps (r.lead p q)
    obtain ⟨lead, hlead, hcomplete⟩ := h.completes hcont
    have hb := r.header_le hs
    refine ⟨lead, hcomplete, ?_, fun _ => ⟨by rw [h.headerLeft_eq]; omega, hp⟩⟩
    rw [← hlead, r.framesIn_eq]
    exact hf
  · obtain ⟨hnone, hall⟩ := r.firstStart_none hq hs
    obtain ⟨next, -, hcont⟩ := Phase.continueWith_continued h.phase_keeps (r.between p q)
    obtain ⟨lead, hlead, hcomplete⟩ := h.completes hcont
    refine ⟨lead, hall ▸ hcomplete, ?_, fun hb => absurd hb hs⟩
    rw [hnone, r.framesIn_nil hq (Nat.le_of_not_lt hs), ← hlead, List.append_nil]
    rfl

/-- A numbered chunk does the same, in order or behind a gap, when the last number was that of an
earlier chunk. -/
theorem Keeps.intake_contained (h : s.Keeps 0 part) (hi : i < 65536)
    (hl : ∀ last ∈ s.lastSequence, ∃ b < i, last = r.sequence b) :
    ∃ lead : Option Frame,
      (∀ f ∈ lead, s.Completes (r.lead (r.offset i) (r.offset (i + 1))) f) ∧
      (s.intake (r.chunk i)).2.frames =
        lead.toList ++ r.framesIn (r.offset i) (r.offset (i + 1)) ∧
      (r.begun (r.offset i) < r.begun (r.offset (i + 1)) →
        (s.intake (r.chunk i)).1.Follows r (r.offset (i + 1))) := by
  have hq := r.offset_le_length (i + 1)
  have hc := r.offset_succ_sub_le i
  have hdata := r.data_chunk i
  cases ha : s.arrival (r.chunk i).sequence with
  | duplicate n =>
    obtain ⟨hn, hlast⟩ := s.arrival_duplicate_iff.mp ha
    obtain ⟨b, hb, rfl⟩ := hl n hlast
    exact absurd (Option.some.inj hn) (sequence_ne hi (by omega) (by omega))
  | inOrder =>
    have hk : Keeps { s with lastSequence := some (r.sequence i) } 0 part :=
      ⟨h.headerLeft_eq, h.phase_keeps, h.part_eq⟩
    obtain ⟨lead, hlead, hframes, hfollows⟩ := hk.accept_contained hq hc
    rw [intake_inOrder ha, hdata]
    exact ⟨lead, hlead, hframes, hfollows⟩
  | gap expected actual =>
    obtain ⟨lead, hlead, hframes, hfollows⟩ :=
      (s.keeps_loseTrack (some (r.sequence i))).accept_contained hq hc
    rw [intake_gap ha, hdata]
    refine ⟨lead, fun f hf => ?_, hframes, hfollows⟩
    obtain ⟨held, -, hphase, -⟩ := hlead f hf
    exact absurd hphase.symm (Phase.partway_ne_resync held)

/-! ### One chunk after another -/

/-- The stream has come through what became of the first `i` chunks: it keeps the beginning of
some frame, its last number is one of theirs, and it follows the recording if the next chunk
begins within a frame that has come as it is so far. -/
structure Withstands (r : Recording) (fates : Nat → Fate) (i : Nat) (s : Stream) : Prop where
  keeps : ∃ part, s.Keeps 0 part
  last_lt : ∀ last ∈ s.lastSequence, ∃ b < i, last = r.sequence b
  follows : r.start (r.ended (r.offset i)) < r.offset i →
    r.Intact fates (r.start (r.ended (r.offset i))) (r.offset i) →
      s.Follows r (r.offset i) ∧ s.Before r i

theorem withstands_new (r : Recording) (fates : Nat → Fate) :
    (Stream.new 0).Withstands r fates 0 where
  keeps := ⟨[], keeps_new 0⟩
  last_lt := fun _ hl => nomatch hl
  follows := fun h => absurd h (Nat.not_lt_zero _)

/-- A chunk that comes again changes nothing and gives nothing. -/
theorem arrivals_sound {again : Nat} (h : fates i = .sound again) (s : Stream) :
    s.after (r.arrivals fates i) = (s.intake (r.chunk i)).1 ∧
      s.emitted (r.arrivals fates i) = (s.intake (r.chunk i)).2.frames := by
  have hd : (List.replicate (again + 1) i).destutter (· ≠ ·) = [i] := by
    have ho := Recording.destutter'_replicate [] i again
    rwa [List.append_nil] at ho
  have ha : r.arrivals fates i = (List.replicate (again + 1) i).map r.chunk := by
    rw [Recording.arrivals, h, List.map_replicate]
  rw [ha, after_destutter _ _ r.sequence_chunk, emitted_destutter _ _ r.sequence_chunk, hd]
  exact ⟨rfl, List.append_nil _⟩

theorem lastSequence_arrivals (s : Stream) : (s.after (r.arrivals fates i)).lastSequence =
    if fates i = .lost then s.lastSequence else some (r.sequence i) := by
  cases hf : fates i with
  | sound again =>
    rw [(arrivals_sound hf s).1]
    exact lastSequence_intake s rfl
  | lost =>
    rw [Recording.arrivals, hf]
    rfl
  | forged data hint =>
    rw [Recording.arrivals, hf]
    exact lastSequence_intake s rfl

namespace Withstands

section Step

variable (h : s.Withstands r fates i) (hi : i < 65536)
include h

/-- The stream keeps the beginning of a frame, whatever comes. -/
theorem keeps_arrivals : ∃ part, (s.after (r.arrivals fates i)).Keeps 0 part := by
  obtain ⟨part, hk⟩ := h.keeps
  obtain ⟨left, hle, part', hk'⟩ := keeps_after (r.arrivals fates i) hk
  obtain rfl := Nat.le_zero.mp hle
  exact ⟨part', hk'⟩

theorem last_arrivals : ∀ last ∈ (s.after (r.arrivals fates i)).lastSequence,
    ∃ b < i + 1, last = r.sequence b := by
  intro last hl
  rw [lastSequence_arrivals] at hl
  split at hl
  · obtain ⟨b, hb, he⟩ := h.last_lt last hl
    exact ⟨b, Nat.lt_succ_of_lt hb, he⟩
  · exact ⟨i, Nat.lt_succ_self i, (Option.some.inj hl).symm⟩

include hi

/-- A chunk that comes as it is lets the stream go on following, or fall in with the first frame
that begins in it. -/
theorem follows_sound (hlt : r.offset i < r.offset (i + 1))
    (hstart : r.start (r.ended (r.offset (i + 1))) < r.offset (i + 1))
    (hintact : r.Intact fates (r.start (r.ended (r.offset (i + 1)))) (r.offset (i + 1))) :
    (s.intake (r.chunk i)).1.Follows r (r.offset (i + 1)) := by
  have hle := r.offset_le_length (i + 1)
  obtain ⟨part, hk⟩ := h.keeps
  obtain ⟨-, -, -, hjoin⟩ := hk.intake_contained hi h.last_lt
  by_cases hs : r.begun (r.offset i) < r.begun (r.offset (i + 1))
  · exact hjoin hs
  · -- the frame that the end of the chunk cuts is the one that its beginning cuts
    obtain ⟨-, hend, hbegun⟩ := r.begun_within hstart hle
    have hcut : r.start (r.ended (r.offset (i + 1))) < r.offset i :=
      Layout.start_begun_lt _ (show r.ended (r.offset (i + 1)) < r.begun (r.offset i) by omega)
    have hsame : r.ended (r.offset i) = r.ended (r.offset (i + 1)) :=
      Layout.ended_eq (r.ended_le_length _) (Nat.le_of_lt hcut) fun _ => Nat.lt_trans hlt hend
    rw [← hsame] at hcut hintact
    obtain ⟨hfollows, hbefore⟩ := h.follows hcut (hintact.mono (Nat.le_refl _) (Nat.le_of_lt hlt))
    exact (hfollows.intake hbefore).1

/-- **Each chunk is withstood, whatever becomes of it.** -/
theorem step (hlt : r.offset i < r.offset (i + 1)) :
    (s.after (r.arrivals fates i)).Withstands r fates (i + 1) where
  keeps := h.keeps_arrivals
  last_lt := h.last_arrivals
  follows := fun hstart hintact => by
    obtain ⟨again, hf⟩ := Fate.isSound_iff.mp (hintact.isSound hstart hlt (Nat.le_refl _))
    rw [(arrivals_sound hf s).1]
    exact ⟨h.follows_sound hi hlt hstart hintact, before_succ i s⟩

/-- A chunk that comes as it is gives the intact frames that end in it. -/
theorem frames_sound (hb : r.header.length ≤ r.offset i) :
    (r.intactIn fates (r.ended (r.offset i)) (r.ended (r.offset (i + 1)))).Sublist
      (s.intake (r.chunk i)).2.frames := by
  have hle := r.offset_le_length i
  obtain ⟨part, hk⟩ := h.keeps
  obtain ⟨lead, -, hframes, -⟩ := hk.intake_contained hi h.last_lt
  have hwithin : (r.intactIn fates (r.begun (r.offset i)) (r.ended (r.offset (i + 1)))).Sublist
      (s.intake (r.chunk i)).2.frames := by
    rw [hframes, r.framesIn_eq]
    exact (Recording.intactIn_sublist _ _).trans (List.sublist_append_right _ _)
  have hstart : r.start (r.ended (r.offset i)) ≤ r.offset i := Layout.start_ended_le _ hb
  rcases Nat.lt_or_eq_of_le hstart with hcut | hstart
  · obtain ⟨hn, hend, hbegun⟩ := r.begun_within hcut hle
    by_cases hintact : r.Intact fates (r.start (r.ended (r.offset i))) (r.offset i)
    · obtain ⟨hfollows, hbefore⟩ := h.follows hcut hintact
      rw [(hfollows.intake hbefore).2]
      exact Recording.intactIn_sublist _ _
    · rw [Recording.intactIn_skip hn fun hall =>
        hintact (hall.mono (Nat.le_refl _) (Nat.le_of_lt hend)), ← hbegun]
      exact hwithin
  · rwa [r.begun_between hstart] at hwithin

/-- **Of each chunk come the intact frames that end in it, whatever becomes of it.** -/
theorem frames (hb : r.header.length ≤ r.offset i) :
    (r.intactIn fates (r.ended (r.offset i)) (r.ended (r.offset (i + 1)))).Sublist
      (s.emitted (r.arrivals fates i)) := by
  by_cases hf : (fates i).isSound = true
  · obtain ⟨again, hf⟩ := Fate.isSound_iff.mp hf
    rw [(arrivals_sound hf s).2]
    exact h.frames_sound hi hb
  · -- a frame that ends in the chunk has its last byte there
    have hnone : r.intactIn fates (r.ended (r.offset i)) (r.ended (r.offset (i + 1))) = [] := by
      refine Recording.intactIn_nil fun j hj hj' hn hintact => hf ?_
      have hlow : r.offset i < r.start (j + 1) := r.lt_start_succ hj hn
      have hhigh : r.start (j + 1) ≤ r.offset (i + 1) :=
        Nat.le_trans (r.start_mono hj')
          (Layout.start_ended_le _ (Nat.le_trans hb (r.offset_le_succ i)))
      exact hintact.isSound (Layout.start_lt _ (Nat.lt_succ_self j) hn) hlow hhigh
    rw [hnone]
    exact List.nil_sublist _

end Step

end Withstands

/-- **After the arrivals of any number of chunks**, all have been withstood, and the intact frames
that end in them are there. -/
theorem withstands_arrived (fates : Nat → Fate) (hh : r.header = [])
    (hn : r.pieces.length ≤ 65536) (hp : ∀ piece ∈ r.pieces, piece ≠ []) :
    ∀ count ≤ r.pieces.length,
      ((Stream.new 0).after (r.arrived fates count)).Withstands r fates count ∧
      (r.intactIn fates 0 (r.ended (r.offset count))).Sublist
        ((Stream.new 0).emitted (r.arrived fates count))
  | 0, _ => by
    have hz : r.ended (r.offset 0) = 0 := r.ended_of_le (Nat.zero_le _)
    rw [hz, Recording.intactIn_nil fun j _ hj => absurd hj (Nat.not_lt_zero j)]
    exact ⟨withstands_new r fates, List.nil_sublist _⟩
  | i + 1, hi => by
    obtain ⟨hw, hs⟩ := withstands_arrived fates hh hn hp i (Nat.le_of_succ_le hi)
    have hb : r.header.length ≤ r.offset i := hh ▸ Nat.zero_le _
    have hi' : i < 65536 := Nat.lt_of_lt_of_le hi hn
    rw [Recording.arrived_succ, after_append, emitted_append,
      ← Recording.intactIn_append (Nat.zero_le _) (r.ended_mono (r.offset_le_succ i))
        (r.ended_le_length _)]
    exact ⟨hw.step hi' (r.offset_lt_succ hp hi), hs.append (hw.frames hi' hb)⟩

end Stream

/-- **Only frames are lost of which a byte is.** Whatever becomes of some chunks, all frames come
out, in order, of which all bytes lie in chunks that come as they are; and such a chunk gives
first at most the frame in progress, if the bytes in front of its first start complete it, and
then exactly the frames that lie within it. -/
theorem Recording.contained (r : Recording) (fates : Nat → Fate) (hh : r.header = [])
    (hn : r.pieces.length ≤ 65536) (hp : ∀ piece ∈ r.pieces, piece ≠ []) :
    (r.intactFrames fates).Sublist ((Stream.new 0).emitted (r.arrived fates r.pieces.length)) ∧
      ∀ i < r.pieces.length, ∀ again, fates i = .sound again →
        let s := (Stream.new 0).after (r.arrived fates i)
        ∃ lead : Option Frame,
          (∀ f ∈ lead, s.Completes (r.lead (r.offset i) (r.offset (i + 1))) f) ∧
          (s.intake (r.chunk i)).2.frames =
            lead.toList ++ r.framesIn (r.offset i) (r.offset (i + 1)) := by
  constructor
  · have hall := (Stream.withstands_arrived fates hh hn hp _ (Nat.le_refl _)).2
    have hlast : r.ended (r.offset r.pieces.length) = r.frames.length := by
      refine Nat.le_antisymm (r.ended_le_length _) (r.le_ended (Nat.le_refl _) ?_)
      rw [← length_bytes, ← r.flatten_pieces, offset, List.take_length]
    rwa [hlast, intactIn_all] at hall
  · intro i hi again _ s
    have hw := (Stream.withstands_arrived fates hh hn hp i (Nat.le_of_lt hi)).1
    obtain ⟨part, hk⟩ := hw.keeps
    obtain ⟨lead, hlead, hframes, -⟩ :=
      hk.intake_contained (Nat.lt_of_lt_of_le hi hn) hw.last_lt
    exact ⟨lead, hlead, hframes⟩

/-- The frames of the small recording without a file header. The second is cut twice. -/
def Recording.bare : Recording where
  header := []
  frames := small.frames
  pieces := [[2, 0, 79, 7, 0, 3, 0], [67, 3, 4], [5, 2, 0, 82, 1, 2]]
  first := small.first
  proper := small.proper
  cut := by decide
  fits := by decide

/-- The first of its chunks comes twice, and the payload of the second is forged. -/
def Recording.bareFates : Nat → Fate
  | 1 => .forged [67, 9, 9] 255
  | i => .sound (1 - i)

/-- The frame with the forged bytes is completed by the chunk behind them, and the others come
out as they are. -/
theorem Recording.contained_bare :
    ([⟨79, [7, 0]⟩, ⟨82, [1, 2]⟩] : List Frame).Sublist
        ((Stream.new 0).emitted (bare.arrived bareFates 3)) ∧
      (((Stream.new 0).after (bare.arrived bareFates 2)).intake (bare.chunk 2)).2.frames =
        [⟨67, [9, 9, 5]⟩, ⟨82, [1, 2]⟩] ∧
      ((Stream.new 0).after (bare.arrived bareFates 2)).Completes [5] ⟨67, [9, 9, 5]⟩ := by
  obtain ⟨hall, heach⟩ := contained bare bareFates rfl (by decide) (by decide)
  have hintact : bare.intactFrames bareFates = [⟨79, [7, 0]⟩, ⟨82, [1, 2]⟩] := by decide
  have hframes :
      (((Stream.new 0).after (bare.arrived bareFates 2)).intake (bare.chunk 2)).2.frames =
        [⟨67, [9, 9, 5]⟩, ⟨82, [1, 2]⟩] := by decide
  have hwithin : bare.framesIn (bare.offset 2) (bare.offset 3) = [⟨82, [1, 2]⟩] := by decide
  have hbytes : bare.lead (bare.offset 2) (bare.offset 3) = [5] := by decide
  rw [hintact] at hall
  obtain ⟨lead, hlead, hgives⟩ := heach 2 (by decide) 0 rfl
  rw [hframes, hwithin] at hgives
  rw [hbytes] at hlead
  refine ⟨hall, hframes, ?_⟩
  cases lead with
  | none => cases hgives
  | some f =>
    cases hgives
    exact hlead _ rfl

end Log
end FlightLink
