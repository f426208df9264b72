/-
# Following a recording

A stream follows a recording at a place when its state is what the recording says by there:
the rest of the file header is still to come, or the part of the frame that the place cuts
has been read. The next chunk takes a following stream from its one end to its other, and
gives exactly the frames that end in it (`Follows.accept`). A stream that is idle, because
it lost track or began within the log, falls in with the recording at the first frame that
begins in a chunk (`Idle.accept`).

Key definitions: `Stream.Follows`, `Stream.Idle`, `Recording.headerIn`, `Recording.lead`.
Key theorems: `Recording.ingest_partAt`, `Recording.ingest_begun`, `Stream.Follows.accept`,
`Stream.Idle.accept`.
-/
import FlightLink.Proofs.Log.Recording

namespace FlightLink
namespace Log

open Log.Frame

namespace Recording

variable (r : Recording)

/-- What is noted of the bytes of the file header between two places. -/
def headerIn (low high : Nat) : List Diagnostic :=
  if min r.header.length high - low = 0 then []
  else [.fileHeaderStripped (min r.header.length high - low)]

/-! ### Frames begun and frames ended -/

theorem le_ended {k place : Nat} (hk : k ≤ r.frames.length) (h : r.start k ≤ place) :
    k ≤ r.ended place := by
  refine Nat.le_of_not_lt fun hn => ?_
  have h1 : place < r.start (r.ended place + 1) :=
    Layout.lt_start_ended _ _ _ (Nat.lt_of_lt_of_le hn hk)
  have h2 := r.start_mono (show r.ended place + 1 ≤ k from hn)
  omega

/-- A frame that has not ended by a place ends behind it. -/
theorem lt_start_succ {place k : Nat} (h : r.ended place ≤ k) (hk : k < r.frames.length) :
    place < r.start (k + 1) := by
  have hlt : place < r.start (r.ended place + 1) :=
    Layout.lt_start_ended _ _ _ (Nat.lt_of_le_of_lt h hk)
  exact Nat.lt_of_lt_of_le hlt (r.start_mono (Nat.succ_le_succ h))

/-- Between two frames as many have begun as ended. -/
theorem begun_between {place : Nat} (h : r.start (r.ended place) = place) :
    r.begun place = r.ended place := by
  refine Layout.begun_eq (r.ended_le_length place) (fun j hj => ?_) fun _ => Nat.le_of_eq h.symm
  have : r.start j < r.start (r.ended place) := Layout.start_lt _ hj (r.ended_le_length place)
  show r.start j < place
  omega

/-- Within a frame one more has begun. -/
theorem begun_within {place : Nat} (h : r.start (r.ended place) < place)
    (hp : place ≤ r.bytes.length) :
    r.ended place < r.frames.length ∧ place < r.start (r.ended place + 1) ∧
      r.begun place = r.ended place + 1 := by
  have hn : r.ended place < r.frames.length := by
    refine Nat.lt_of_le_of_ne (r.ended_le_length place) fun he => ?_
    rw [length_bytes, ← he] at hp
    omega
  have hlt : place < r.start (r.ended place + 1) := Layout.lt_start_ended _ _ _ hn
  refine ⟨hn, hlt, Layout.begun_eq hn (fun j hj => ?_) fun _ => Nat.le_of_lt hlt⟩
  have : r.start j ≤ r.start (r.ended place) := r.start_mono (Nat.le_of_lt_succ hj)
  show r.start j < place
  omega

theorem begun_of_le {place : Nat} (h : place ≤ r.header.length) : r.begun place = 0 :=
  Layout.begun_eq (Nat.zero_le _) (fun j hj => absurd hj (Nat.not_lt_zero j)) fun _ => by
    rwa [Layout.start_zero]

theorem ended_of_le {place : Nat} (h : place ≤ r.header.length) : r.ended place = 0 :=
  Layout.ended_of_le _ h

theorem ended_mono {p q : Nat} (hpq : p ≤ q) : r.ended p ≤ r.ended q := by
  by_cases hb : r.header.length ≤ p
  · exact Layout.ended_mono hb hpq
  · rw [r.ended_of_le (by omega)]
    exact Nat.zero_le _

/-- What ended by one place and what ended from there to another. -/
theorem slice_append {a p q : Nat} (ha : a ≤ r.ended p) (hpq : p ≤ q) :
    (r.frames.take (r.ended p)).drop a ++ (r.frames.take (r.ended q)).drop (r.ended p) =
      (r.frames.take (r.ended q)).drop a :=
  Layout.slice_append ha (r.ended_mono hpq) (r.ended_le_length p)

theorem ended_le_begun {place : Nat} (hp : place ≤ r.bytes.length) :
    r.ended place ≤ r.begun place := by
  by_cases hb : r.header.length ≤ place
  · have hs : r.start (r.ended place) ≤ place := Layout.start_ended_le _ hb
    rcases Nat.lt_or_eq_of_le hs with h | h
    · have := (r.begun_within h hp).2.2
      omega
    · exact Nat.le_of_eq (r.begun_between h).symm
  · rw [r.ended_of_le (by omega)]
    exact Nat.zero_le _

/-- From one place to another more have begun only if one begins between them. -/
theorem begun_lt_iff (p q : Nat) :
    r.begun p < r.begun q ↔ r.begun p < r.frames.length ∧ r.start (r.begun p) < q := by
  have hlen : r.begun q ≤ r.frames.length := Layout.begun_le_length _ _ _
  constructor
  · intro h
    exact ⟨Nat.lt_of_lt_of_le h hlen, Layout.start_begun_lt _ h⟩
  · rintro ⟨hn, hs⟩
    refine Nat.lt_of_not_le fun hle => ?_
    have h1 : q ≤ r.start (r.begun q) := Layout.le_start_begun _ _ _ (Nat.lt_of_le_of_lt hle hn)
    have h2 := r.start_mono hle
    omega

/-- Frames begin behind the file header. -/
theorem header_le {p q : Nat} (h : r.begun p < r.begun q) : r.header.length ≤ q :=
  Nat.le_trans (Layout.base_le_start _ _ _) (Nat.le_of_lt ((r.begun_lt_iff p q).mp h).2)

theorem begun_mono {p q : Nat} (hpq : p ≤ q) : r.begun p ≤ r.begun q := by
  by_cases h : r.begun p < r.begun q
  · exact Nat.le_of_lt h
  · refine Nat.le_of_eq (Eq.symm ?_)
    refine Layout.begun_eq (Layout.begun_le_length _ _ _) (fun j hj => ?_) fun hn => ?_
    · exact Nat.lt_of_lt_of_le (Layout.start_begun_lt _ hj) hpq
    · exact Nat.le_of_not_lt fun hs => h ((r.begun_lt_iff p q).mpr ⟨hn, hs⟩)

/-! ### A chunk behind the file header -/

section Chunk

variable {p q : Nat} (hb : r.header.length ≤ p) (hpq : p ≤ q) (hq : q ≤ r.bytes.length)

include hb hpq hq

/-- A chunk that begins within a frame. -/
theorem ingest_within (hlt : r.start (r.ended p) < p) :
    (Phase.partway (r.partAt p)).ingest (r.between p q) (r.firstStart p q) =
      (.partway (r.partAt q), ⟨(r.frames.take (r.ended q)).drop (r.ended p), []⟩) := by
  have hu := r.unfinished_partAt hq
  obtain ⟨hn, hend, hbeg⟩ := r.begun_within hlt (Nat.le_trans hpq hq)
  have hf : (r.frames[r.ended p]).Proper := r.proper _ (List.getElem_mem hn)
  have hpne : r.partAt p ≠ [] := by
    refine List.ne_nil_of_length_pos ?_
    rw [partAt, r.length_between (Nat.le_trans hpq hq)]
    omega
  rw [firstStart_eq, hbeg]
  rcases Nat.lt_or_ge q (r.start (r.ended p + 1)) with hqe | hqe
  · -- the frame that is in progress goes on behind the chunk
    have he : r.ended q = r.ended p :=
      Layout.ended_eq (r.ended_le_length p) (Nat.le_trans (Nat.le_of_lt hlt) hpq) fun _ => hqe
    have hpart : r.partAt p ++ r.between p q = r.partAt q := by
      rw [partAt, r.between_append (Nat.le_of_lt hlt) hpq (Nat.le_trans hpq hq), partAt, he]
    rw [← hpart] at hu ⊢
    rw [if_neg (by omega), Phase.ingest_unfinished (fun h => absurd h hpne) hu, he,
      List.drop_eq_nil_of_le (List.length_take_le _ _)]
    rfl
  · have hle : r.start (r.ended p + 1) ≤ r.bytes.length := r.start_le_length hn
    have hwhole : r.partAt p ++ r.between p (r.start (r.ended p + 1)) =
        (r.frames[r.ended p]).toBytes := by
      rw [partAt, r.between_append (Nat.le_of_lt hlt) (Nat.le_of_lt hend) (Nat.le_trans hpq hq),
        r.between_frame hn]
    have hrest : r.between p (r.start (r.ended p + 1)) ≠ [] := by
      refine List.ne_nil_of_length_pos ?_
      rw [r.length_between hle]
      omega
    have hq1 : r.ended p + 1 ≤ r.ended q := r.le_ended hn hqe
    have hdone : (r.frames.take (r.ended q)).drop (r.ended p) =
        r.frames[r.ended p] :: (r.frames.take (r.ended q)).drop (r.ended p + 1) := by
      rw [List.drop_eq_getElem_cons (by rw [List.length_take]; omega), List.getElem_take]
    rcases Nat.lt_or_eq_of_le hqe with hturn | hturn
    · -- it ends in the chunk, and others begin
      have hmore : r.ended p + 1 < r.frames.length := by
        refine Nat.lt_of_le_of_ne hn fun h => ?_
        rw [h, ← length_bytes] at hturn
        omega
      have hd : r.between p q = r.between p (r.start (r.ended p + 1)) ++
          (join ((r.frames.take (r.ended q)).drop (r.ended p + 1)) ++ r.partAt q) := by
        rw [← r.between_partAt hq1 (Nat.le_trans hb hpq) hq,
          r.between_append (Nat.le_of_lt hend) hqe hle]
      have hoff : r.start (r.ended p + 1) - p =
          (r.between p (r.start (r.ended p + 1))).length := (r.length_between hle).symm
      rw [if_pos ⟨hmore, hturn⟩, hoff, hd,
        Phase.ingest_turn hf hwhole hpne hrest (r.proper_slice _ _) hu, hdone]
    · -- it ends with the chunk
      have he : r.ended q = r.ended p + 1 :=
        Layout.ended_eq hn (Nat.le_of_eq hturn) fun h => by
          rw [← hturn]
          exact Layout.start_lt _ (Nat.lt_succ_self _) h
      have hnil : r.partAt q = [] := by
        rw [partAt, he, hturn, between_self]
      rw [hdone, he, List.drop_eq_nil_of_le (List.length_take_le _ _), hnil, if_neg (by omega),
        ← hturn]
      exact Phase.ingest_whole hf hwhole hpne hrest

/-- A chunk that begins where a frame begins or the last one ended. -/
theorem ingest_between (heq : r.start (r.ended p) = p) :
    (Phase.partway (r.partAt p)).ingest (r.between p q) (r.firstStart p q) =
      (.partway (r.partAt q), ⟨(r.frames.take (r.ended q)).drop (r.ended p), []⟩) := by
  have hnil : r.partAt p = [] := by
    rw [partAt, heq, between_self]
  have hm : r.ended p ≤ r.ended q := Layout.ended_mono hb hpq
  have hd := r.between_partAt hm (Nat.le_trans hb hpq) hq
  rw [heq] at hd
  rw [firstStart_eq, r.begun_between heq, heq, hnil, Phase.partway_nil, Nat.sub_self]
  rcases Nat.lt_or_eq_of_le hpq with hlt | rfl
  · have hn : r.ended p < r.frames.length := by
      refine Nat.lt_of_le_of_ne (r.ended_le_length p) fun h => ?_
      rw [h, ← length_bytes] at heq
      omega
    rw [if_pos ⟨hn, hlt⟩, hd]
    exact Phase.ingest_start (r.proper_slice _ _) (r.unfinished_partAt hq)
  · rw [between_self, if_neg (by omega), hnil, List.drop_eq_nil_of_le (List.length_take_le _ _)]
    rfl

/-- **Between two places behind the file header, the frames that end there come out.** -/
theorem ingest_partAt :
    (Phase.partway (r.partAt p)).ingest (r.between p q) (r.firstStart p q) =
      (.partway (r.partAt q), ⟨(r.frames.take (r.ended q)).drop (r.ended p), []⟩) := by
  have hs : r.start (r.ended p) ≤ p := Layout.start_ended_le _ hb
  rcases Nat.lt_or_eq_of_le hs with h | h
  · exact r.ingest_within hb hpq hq h
  · exact r.ingest_between hb hpq hq h

end Chunk

/-- The bytes between two places that stand in front of the first frame that begins there. -/
def lead (low high : Nat) : Bytes :=
  (r.between low high).take ((r.firstStart low high).getD (high - low))

/-- **A phase falls in with the recording at the first frame that begins in a chunk**, whatever
it makes of the bytes in front of it. -/
theorem ingest_begun (phase : Phase) {p q : Nat} (hq : q ≤ r.bytes.length)
    (h : r.begun p < r.begun q) :
    (phase.ingest (r.between p q) (r.firstStart p q)).1 = .partway (r.partAt q) ∧
      (phase.ingest (r.between p q) (r.firstStart p q)).2.frames =
        (phase.leadUp (r.lead p q)).2.frames ++ (r.frames.take (r.ended q)).drop (r.begun p) := by
  obtain ⟨hn, hs⟩ := (r.begun_lt_iff p q).mp h
  have hle : p ≤ r.start (r.begun p) := Layout.le_start_begun _ _ _ hn
  have hend : r.begun p ≤ r.ended q := r.le_ended (Nat.le_of_lt hn) (Nat.le_of_lt hs)
  have hd : r.between p q = r.between p (r.start (r.begun p)) ++
      (join ((r.frames.take (r.ended q)).drop (r.begun p)) ++ r.partAt q) := by
    rw [← r.between_partAt hend (r.header_le h) hq, r.between_append hle (Nat.le_of_lt hs) (by omega)]
  have hoff : r.start (r.begun p) - p = (r.between p (r.start (r.begun p))).length :=
    (r.length_between (by omega)).symm
  rw [lead, firstStart_eq, if_pos ⟨hn, hs⟩, Option.getD_some, hoff, hd, List.take_left]
  exact Phase.ingest_some phase _ (r.proper_slice _ _) (r.unfinished_partAt hq)

/-- Where no frame begins, all bytes are in front of the first one. -/
theorem firstStart_none {p q : Nat} (hq : q ≤ r.bytes.length) (h : ¬ r.begun p < r.begun q) :
    r.firstStart p q = none ∧ r.lead p q = r.between p q := by
  have hnone : r.firstStart p q = none := by
    rw [firstStart_eq, if_neg fun hc => h ((r.begun_lt_iff p q).mpr hc)]
  refine ⟨hnone, ?_⟩
  rw [lead, hnone, Option.getD_none, ← r.length_between hq, List.take_length]

end Recording

namespace Stream

variable {r : Recording} {p q : Nat} {s : Stream}

/-- The stream is where the recording is at a place. -/
structure Follows (r : Recording) (place : Nat) (s : Stream) : Prop where
  headerLeft_eq : s.headerLeft = r.header.length - place
  phase_eq : s.phase = .partway (r.partAt place)

/-- The stream awaits no file header and has no message in progress. -/
structure Idle (s : Stream) : Prop where
  headerLeft_eq : s.headerLeft = 0
  inProgress_eq : s.phase.inProgress = false

theorem follows_new (r : Recording) : (Stream.new r.header.length).Follows r 0 :=
  ⟨rfl, by rw [r.partAt_of_le (Nat.zero_le _)]; rfl⟩

theorem idle_loseTrack (s : Stream) (last : Option UInt16) :
    { s.loseTrack with lastSequence := last }.Idle := ⟨rfl, rfl⟩

/-- A chunk with a true hint is never refused. -/
theorem accept_between (hq : q ≤ r.bytes.length) (hc : q - p ≤ Wire.LogData.capacity) :
    s.accept (r.between p q) (r.hint p q) = s.stripHeader (r.between p q) (r.firstStart p q) := by
  rw [accept, r.length_between hq, r.ofByte_hint hc]
  cases r.firstStart p q <;> rfl

/-- A chunk that begins within the file header. What comes behind the file header begins
with a frame. -/
theorem Follows.accept_header (h : s.Follows r p) (hb : p < r.header.length) (hpq : p ≤ q)
    (hq : q ≤ r.bytes.length) (hc : q - p ≤ Wire.LogData.capacity) :
    (s.accept (r.between p q) (r.hint p q)).1.Follows r q ∧
      (s.accept (r.between p q) (r.hint p q)).2 =
        ⟨(r.frames.take (r.ended q)).drop (r.ended p), r.headerIn p q⟩ := by
  have hp : s.phase = .fresh := by
    rw [h.phase_eq, r.partAt_of_le (Nat.le_of_lt hb), Phase.partway_nil]
  have hlength : (r.between p q).length = q - p := r.length_between hq
  have hleft := h.headerLeft_eq
  rw [accept_between hq hc, r.ended_of_le (Nat.le_of_lt hb), List.drop_zero]
  rcases Nat.lt_or_ge q r.header.length with hqb | hqb
  · rw [stripHeader_within (by omega), hlength, hleft]
    refine ⟨⟨Nat.sub_sub_sub_cancel_right hpq, ?_⟩, ?_⟩
    · rw [r.partAt_of_le (Nat.le_of_lt hqb)]
      exact hp
    · rw [Recording.headerIn, Nat.min_eq_right (Nat.le_of_lt hqb),
        r.ended_of_le (Nat.le_of_lt hqb)]
      split <;> rfl
  · have hoff : (r.firstStart p q).getD 0 - (r.header.length - p) = 0 := by
      rw [r.firstStart_eq, r.begun_of_le (Nat.le_of_lt hb)]
      split
      · rw [Option.getD_some, Recording.start, Layout.start_zero, Nat.sub_self]
      · exact Nat.zero_sub _
    have hdrop : (r.between p q).drop (r.header.length - p) = r.between r.header.length q := by
      rw [Recording.between, List.drop_drop, Recording.between]
      congr 1
      omega
    have hd := r.between_partAt (Nat.zero_le (r.ended q)) hqb hq
    rw [Recording.start, Layout.start_zero, List.drop_zero] at hd
    have hi : Phase.fresh.ingest (r.between r.header.length q) (some 0) =
        (.partway (r.partAt q), ⟨r.frames.take (r.ended q), []⟩) := by
      rw [hd]
      exact Phase.ingest_start (r.proper_slice 0 (r.ended q)) (r.unfinished_partAt hq)
    rw [stripHeader_completes (by omega) (by omega), hleft, hoff, hdrop, takeIn, hp, hi]
    refine ⟨⟨(Nat.sub_eq_zero_of_le hqb).symm, rfl⟩, ?_⟩
    rw [Recording.headerIn, Nat.min_eq_left hqb, if_neg (by omega)]
    rfl

/-- **A chunk takes a following stream on, and the frames that end in it come out.** -/
theorem Follows.accept (h : s.Follows r p) (hpq : p ≤ q) (hq : q ≤ r.bytes.length)
    (hc : q - p ≤ Wire.LogData.capacity) :
    (s.accept (r.between p q) (r.hint p q)).1.Follows r q ∧
      (s.accept (r.between p q) (r.hint p q)).2 =
        ⟨(r.frames.take (r.ended q)).drop (r.ended p), r.headerIn p q⟩ := by
  by_cases hb : r.header.length ≤ p
  · have hl : s.headerLeft = 0 := by
      rw [h.headerLeft_eq]
      omega
    rw [accept_between hq hc, stripHeader, if_pos hl, takeIn, h.phase_eq,
      r.ingest_partAt hb hpq hq, Recording.headerIn, if_pos (by omega)]
    exact ⟨⟨by rw [hl]; omega, rfl⟩, rfl⟩
  · exact h.accept_header (Nat.lt_of_not_le hb) hpq hq hc

/-- **An idle stream falls in with the recording at the first frame that begins in a chunk,
and stays idle if none does.** -/
theorem Idle.accept (h : s.Idle) (hpq : p ≤ q) (hq : q ≤ r.bytes.length)
    (hc : q - p ≤ Wire.LogData.capacity) :
    (r.begun p < r.begun q ∧ (s.accept (r.between p q) (r.hint p q)).1.Follows r q ∧
        (s.accept (r.between p q) (r.hint p q)).2.frames =
          (r.frames.take (r.ended q)).drop (r.begun p)) ∨
      (r.begun p = r.begun q ∧ (s.accept (r.between p q) (r.hint p q)).1.Idle ∧
        (s.accept (r.between p q) (r.hint p q)).2.frames = []) := by
  rw [accept_between hq hc, stripHeader, if_pos h.headerLeft_eq, takeIn]
  by_cases hs : r.begun p < r.begun q
  · obtain ⟨hp, hf⟩ := r.ingest_begun s.phase hq hs
    have hb := r.header_le hs
    rw [Phase.leadUp_idle h.inProgress_eq, List.nil_append] at hf
    exact Or.inl ⟨hs, ⟨by rw [h.headerLeft_eq]; omega, hp⟩, hf⟩
  · obtain ⟨hp, hf⟩ := Phase.ingest_none_idle h.inProgress_eq (r.between p q)
    rw [(r.firstStart_none hq hs).1]
    exact Or.inr ⟨Nat.le_antisymm (r.begun_mono hpq) (Nat.le_of_not_lt hs),
      ⟨h.headerLeft_eq, hp⟩, hf⟩

/-! ### Numbered chunks -/

/-- The number of the last chunk, if there was one, is the one before `i`. -/
def Before (r : Recording) (i : Nat) (s : Stream) : Prop :=
  ∀ last ∈ s.lastSequence, r.sequence i = last + 1

theorem before_succ (i : Nat) (s : Stream) : (s.intake (r.chunk i)).1.Before r (i + 1) := by
  intro last hl
  rw [lastSequence_intake s rfl, Option.mem_some_iff] at hl
  rw [r.sequence_succ, hl]

theorem intake_chunk {i : Nat} (h : s.Before r i) :
    s.intake (r.chunk i) = { s with lastSequence := some (r.sequence i) }.accept
      (r.between (r.offset i) (r.offset (i + 1))) (r.hint (r.offset i) (r.offset (i + 1))) := by
  rw [intake_inOrder (arrival_inOrder h), ← r.data_chunk]
  rfl

/-- The next chunk takes a following stream on. -/
theorem Follows.intake {i : Nat} (h : s.Follows r (r.offset i)) (hb : s.Before r i) :
    (s.intake (r.chunk i)).1.Follows r (r.offset (i + 1)) ∧
      (s.intake (r.chunk i)).2 =
        ⟨(r.frames.take (r.ended (r.offset (i + 1)))).drop (r.ended (r.offset i)),
          r.headerIn (r.offset i) (r.offset (i + 1))⟩ := by
  rw [intake_chunk hb]
  exact Follows.accept ⟨h.headerLeft_eq, h.phase_eq⟩ (r.offset_le_succ i)
    (r.offset_le_length (i + 1)) (r.offset_succ_sub_le i)

end Stream

end Log
end FlightLink
