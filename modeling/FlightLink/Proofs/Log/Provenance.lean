/-
# No frame is made up

Whatever a stream is called with, the frames that it gives stand in the bytes that it took
in: each in one piece, one behind the other, begun where its chunk lets messages start or
where the frame before it ended, and none across a call in which track was lost
(`Stream.provenance`). What carries this along a run is that the bytes held are the last
bytes taken in, and that a frame may start where they begin (`Sound`).

Key definitions: `Stream.accepted`, `Place`, `Calls.boundary?`, `Calls.MayStart`,
`Provenance`, `Ready`, `Sound`.
Key theorems: `Provenance.add`, `Sound.call`, `Stream.provenance`.
-/
import FlightLink.Proofs.Log.Call

namespace FlightLink
namespace Log

open Log.Frame

/-- The bytes of the calls that were not refused. -/
def Stream.accepted (s : Stream) : List Intake → Bytes
  | [] => []
  | c :: cs => (if (s.intake c).2.isDuplicate then [] else c.data) ++ (s.intake c).1.accepted cs

theorem Stream.accepted_append : ∀ (s : Stream) (a b : List Intake),
    s.accepted (a ++ b) = s.accepted a ++ (s.after a).accepted b
  | _, [], _ => rfl
  | s, c :: a, b => by
    rw [List.cons_append, accepted, accepted, accepted_append (s.intake c).1 a b,
      List.append_assoc]
    rfl

/-- A frame and where it stands among the accepted bytes. -/
structure Place where
  start : Nat
  frame : Frame
  deriving DecidableEq, Repr

def Place.stop (p : Place) : Nat := p.start + p.frame.size

/-! ### Calls of a stream with a file header of `h` bytes -/

namespace Calls

variable (h : Nat)

/-- What a call after others reports. -/
def report (earlier : List Intake) (c : Intake) : Report :=
  (((Stream.new h).after earlier).intake c).2

/-- Where the bytes of the next call stand. -/
def base (earlier : List Intake) : Nat := ((Stream.new h).accepted earlier).length

/-- Track was lost in one of the calls. -/
def lost (calls : List Intake) : Bool := ((Stream.new h).reports calls).any Report.losesTrack

/-- Bytes of the file header that are to come before a call. With track the rest of the file
header is lost. -/
def headerLeft (earlier : List Intake) (c : Intake) : Nat :=
  if lost h (earlier ++ [c]) then 0 else h - base h earlier

/-- The place from which on messages may start in the bytes of a call. -/
def boundary? (earlier : List Intake) (c : Intake) : Option Nat :=
  (c.start? (headerLeft h earlier c)).map (base h earlier + ·)

/-- A frame may start at `x`, with the one before it ended at `last`: in the chunk that brought
byte `x` messages may start, not behind `x`, and just there or at `last`. -/
def MayStart (calls : List Intake) (last : Option Nat) (x : Nat) : Prop :=
  ∀ earlier c later, calls = earlier ++ c :: later → (report h earlier c).isDuplicate = false →
    base h earlier ≤ x → x < base h earlier + c.data.length →
    ∃ b, boundary? h earlier c = some b ∧ b ≤ x ∧ (x = b ∨ last = some x)

/-! ### One call more -/

variable {h}

theorem accepted_snoc (calls : List Intake) (c : Intake) :
    (Stream.new h).accepted (calls ++ [c]) = (Stream.new h).accepted calls ++
      if (report h calls c).isDuplicate then [] else c.data := by
  rw [Stream.accepted_append, Stream.accepted, Stream.accepted, List.append_nil]
  rfl

theorem lost_snoc (calls : List Intake) (c : Intake) :
    lost h (calls ++ [c]) = (lost h calls || (report h calls c).losesTrack) := by
  unfold lost
  rw [Stream.reports_append, List.any_append]
  show (_ || ((report h calls c).losesTrack || false)) = _
  rw [Bool.or_false]

/-- The chunks before a call and the call itself, of one call more. -/
theorem snoc_cases {α : Type} {xs earlier later : List α} {x y : α}
    (he : xs ++ [x] = earlier ++ y :: later) :
    (earlier = xs ∧ y = x ∧ later = []) ∨ ∃ more, xs = earlier ++ y :: more := by
  rcases List.eq_nil_or_concat later with rfl | ⟨more, z, rfl⟩
  · obtain ⟨h1, h2⟩ := List.append_inj' he rfl
    cases h2
    exact Or.inl ⟨h1.symm, rfl, rfl⟩
  · rw [List.concat_eq_append, ← List.cons_append, ← List.append_assoc] at he
    exact Or.inr ⟨more, (List.append_inj' he rfl).1⟩

/-- The bytes of a call stand among those accepted. -/
theorem base_le {calls earlier later : List Intake} {c : Intake}
    (he : calls = earlier ++ c :: later) : base h earlier ≤ base h calls := by
  rw [he, base, base, Stream.accepted_append, List.length_append]
  exact Nat.le_add_right _ _

theorem base_add_le {calls earlier later : List Intake} {c : Intake}
    (he : calls = earlier ++ c :: later) (hd : (report h earlier c).isDuplicate = false) :
    base h earlier + c.data.length ≤ base h calls := by
  have hcons : calls = (earlier ++ [c]) ++ later := by
    rw [he, List.append_assoc]
    rfl
  rw [hcons, base, base, Stream.accepted_append, accepted_snoc, hd, List.length_append,
    List.length_append]
  exact Nat.le_add_right _ _

/-- Every accepted byte was brought by a call. -/
theorem exists_call : ∀ (calls : List Intake) (s : Stream) {x : Nat},
    x < (s.accepted calls).length → ∃ earlier c later, calls = earlier ++ c :: later ∧
      ((s.after earlier).intake c).2.isDuplicate = false ∧ (s.accepted earlier).length ≤ x ∧
      x < (s.accepted earlier).length + c.data.length
  | [], s, x, hx => absurd hx (Nat.not_lt_zero x)
  | c :: calls, s, x, hx => by
    rw [Stream.accepted, List.length_append] at hx
    by_cases hc : (s.intake c).2.isDuplicate = true
    · rw [if_pos hc, List.length_nil, Nat.zero_add] at hx
      obtain ⟨earlier, d, later, he, hd, hle, hlt⟩ := exists_call calls (s.intake c).1 hx
      refine ⟨c :: earlier, d, later, by rw [he]; rfl, hd, ?_⟩
      rw [Stream.accepted, if_pos hc]
      exact ⟨hle, hlt⟩
    · rw [if_neg hc] at hx
      by_cases hfirst : x < c.data.length
      · exact ⟨[], c, calls, rfl, Bool.eq_false_iff.mpr hc, Nat.zero_le x, by
          rw [Stream.accepted, List.length_nil, Nat.zero_add]
          exact hfirst⟩
      · obtain ⟨earlier, d, later, he, hd, hle, hlt⟩ :=
          exists_call calls (s.intake c).1 (show x - c.data.length < _ by omega)
        refine ⟨c :: earlier, d, later, by rw [he]; rfl, hd, ?_⟩
        rw [Stream.accepted, if_neg hc, List.length_append]
        omega

/-- A later call brings no earlier byte. -/
theorem MayStart.later {calls : List Intake} {last : Option Nat} {x : Nat}
    (hm : MayStart h calls last x) (hx : x < base h calls) (c : Intake) :
    MayStart h (calls ++ [c]) last x := by
  intro earlier d later he hd hle hlt
  rcases snoc_cases he with ⟨rfl, -, -⟩ | ⟨more, he⟩
  · omega
  · exact hm earlier d more he hd hle hlt

/-- In the last call a frame may start at its boundary and where the frame before it ended. -/
theorem mayStart_last {calls : List Intake} {c : Intake} {last : Option Nat} {b x : Nat}
    (hb : boundary? h calls c = some b) (hbase : base h calls ≤ b) (hx : b ≤ x)
    (hl : x = b ∨ last = some x) : MayStart h (calls ++ [c]) last x := by
  intro earlier d later he hd hle hlt
  rcases snoc_cases he with ⟨rfl, rfl, -⟩ | ⟨more, he⟩
  · exact ⟨b, hb, hx, hl⟩
  · have hend := base_add_le he hd
    omega

end Calls

open Calls

/-- Where the frames of a run stand. -/
structure Provenance (h : Nat) (calls : List Intake) (places : List Place) : Prop where
  /-- Each frame is proper and stands where it is said to stand. -/
  framed : ∀ p ∈ places,
    p.frame.Proper ∧ p.frame.toBytes <+: ((Stream.new h).accepted calls).drop p.start
  /-- None begins before the end of one before it. -/
  apart : places.Pairwise fun p q => p.stop ≤ q.start
  /-- Each begins in the bytes of a call that was not refused. -/
  brought : ∀ p ∈ places, ∃ earlier c later, calls = earlier ++ c :: later ∧
    (report h earlier c).isDuplicate = false ∧ base h earlier ≤ p.start ∧
    p.start < base h earlier + c.data.length
  /-- Each begins where a frame may start. -/
  begun : ∀ before p after, places = before ++ p :: after →
    MayStart h calls (before.getLast?.map Place.stop) p.start
  /-- None goes on where track is lost. -/
  unbroken : ∀ earlier c later, calls = earlier ++ c :: later →
    (report h earlier c).losesTrack = true → ∀ p ∈ places, p.start < base h earlier →
    p.stop ≤ base h earlier

/-- The next frame may start at `x`. -/
structure Ready (h : Nat) (calls : List Intake) (places : List Place) (x : Nat) : Prop where
  stop_le : ∀ p ∈ places, p.stop ≤ x
  mayStart : MayStart h calls (places.getLast?.map Place.stop) x
  base_le : ∀ earlier c later, calls = earlier ++ c :: later →
    (report h earlier c).losesTrack = true → base h earlier ≤ x

section Places

variable {h : Nat} {calls : List Intake} {places : List Place} {x : Nat}

theorem provenance_nil : Provenance h [] [] where
  framed := fun p hp => absurd hp List.not_mem_nil
  apart := List.Pairwise.nil
  brought := fun p hp => absurd hp List.not_mem_nil
  begun := fun before p after he => absurd he.symm (by simp)
  unbroken := fun earlier c later he => absurd he.symm (by simp)

/-- A frame lies among the accepted bytes. -/
theorem Provenance.stop_le (hp : Provenance h calls places) {p : Place} (hm : p ∈ places) :
    p.start < base h calls ∧ p.stop ≤ base h calls := by
  have hl := (hp.framed p hm).2.length_le
  have hpos := p.frame.size_pos
  rw [length_toBytes, List.length_drop] at hl
  unfold Place.stop base
  omega

/-- **Another call leaves the frames where they are.** -/
theorem Provenance.later (hp : Provenance h calls places) (c : Intake) :
    Provenance h (calls ++ [c]) places where
  framed := by
    intro p hm
    obtain ⟨hf, hpre⟩ := hp.framed p hm
    refine ⟨hf, hpre.trans ?_⟩
    have hle : p.start ≤ ((Stream.new h).accepted calls).length :=
      Nat.le_of_lt (hp.stop_le hm).1
    rw [accepted_snoc, List.drop_append_of_le_length hle]
    exact List.prefix_append _ _
  apart := hp.apart
  brought := by
    intro p hm
    obtain ⟨earlier, d, later, he, hd, hx⟩ := hp.brought p hm
    exact ⟨earlier, d, later ++ [c], by rw [he, List.append_assoc]; rfl, hd, hx⟩
  begun := by
    intro before p after he
    have hm : p ∈ places := by
      rw [he]
      exact List.mem_append_right _ (List.mem_cons_self ..)
    exact (hp.begun before p after he).later (hp.stop_le hm).1 c
  unbroken := by
    intro earlier d later he hl p hm hlt
    rcases snoc_cases he with ⟨rfl, -, -⟩ | ⟨more, he⟩
    · exact (hp.stop_le hm).2
    · exact hp.unbroken earlier d more he hl p hm hlt

/-- **The next frame is added where it may start.** -/
theorem Provenance.add (hp : Provenance h calls places) (hr : Ready h calls places x) {f : Frame}
    (hf : f.Proper) (hx : f.toBytes <+: ((Stream.new h).accepted calls).drop x) :
    Provenance h calls (places ++ [⟨x, f⟩]) where
  framed := by
    intro p hm
    rcases List.mem_append.mp hm with hm | hm
    · exact hp.framed p hm
    · rw [List.mem_singleton.mp hm]
      exact ⟨hf, hx⟩
  apart := by
    refine List.pairwise_append.mpr ⟨hp.apart, List.pairwise_singleton _ _, fun p hm q hq => ?_⟩
    rw [List.mem_singleton.mp hq]
    exact hr.stop_le p hm
  brought := by
    intro p hm
    rcases List.mem_append.mp hm with hm | hm
    · exact hp.brought p hm
    · have hl := hx.length_le
      have hpos := f.size_pos
      rw [length_toBytes, List.length_drop] at hl
      rw [List.mem_singleton.mp hm]
      exact exists_call calls (Stream.new h) (by dsimp only; omega)
  begun := by
    intro before p after he
    rcases snoc_cases he with ⟨rfl, rfl, -⟩ | ⟨more, he⟩
    · exact hr.mayStart
    · exact hp.begun before p more he
  unbroken := by
    intro earlier c later he hl p hm hlt
    rcases List.mem_append.mp hm with hm | hm
    · exact hp.unbroken earlier c later he hl p hm hlt
    · rw [List.mem_singleton.mp hm] at hlt
      exact absurd hlt (Nat.not_lt_of_le (hr.base_le earlier c later he hl))

/-- A frame in progress may still have started where it did. -/
theorem Ready.later (hr : Ready h calls places x) (hx : x < base h calls) {c : Intake}
    (hc : (report h calls c).losesTrack = false) : Ready h (calls ++ [c]) places x where
  stop_le := hr.stop_le
  mayStart := hr.mayStart.later hx c
  base_le := by
    intro earlier d later he hl
    rcases snoc_cases he with ⟨rfl, rfl, -⟩ | ⟨more, he⟩
    · rw [hc] at hl
      cases hl
    · exact hr.base_le earlier d more he hl

/-- In the last call the next frame may start at the boundary and behind the frame before. -/
theorem ready_last {c : Intake} {b : Nat} (hs : ∀ p ∈ places, p.stop ≤ x)
    (hb : boundary? h calls c = some b) (hbase : base h calls ≤ b) (hx : b ≤ x)
    (hl : x = b ∨ places.getLast?.map Place.stop = some x) : Ready h (calls ++ [c]) places x where
  stop_le := hs
  mayStart := mayStart_last hb hbase hx hl
  base_le := by
    intro earlier d later he _
    rcases snoc_cases he with ⟨rfl, -, -⟩ | ⟨more, he⟩
    · exact Nat.le_trans hbase hx
    · exact Nat.le_trans (Calls.base_le he) (Nat.le_trans hbase hx)

/-- **Frames in a row from the boundary of the last call on are added one by one.** -/
theorem Provenance.addAll {c : Intake} {b : Nat} {tail : Bytes}
    (hb : boundary? h calls c = some b) (hbase : base h calls ≤ b) :
    ∀ (frames : List Frame) {places : List Place} {x : Nat},
    Provenance h (calls ++ [c]) places → (∀ p ∈ places, p.stop ≤ x) → b ≤ x →
    (x = b ∨ places.getLast?.map Place.stop = some x) → (∀ f ∈ frames, f.Proper) →
    ((Stream.new h).accepted (calls ++ [c])).drop x = join frames ++ tail →
    ∃ added, added.map Place.frame = frames ∧ Provenance h (calls ++ [c]) (places ++ added) ∧
      Ready h (calls ++ [c]) (places ++ added) (x + (join frames).length)
  | [], places, x, hp, hs, hx, hl, _, _ => by
    refine ⟨[], rfl, ?_, ?_⟩
    · rwa [List.append_nil]
    · rw [List.append_nil]
      exact ready_last hs hb hbase hx hl
  | f :: frames, places, x, hp, hs, hx, hl, hf, hd => by
    have hr := ready_last hs hb hbase hx hl
    have hpre : f.toBytes <+: ((Stream.new h).accepted (calls ++ [c])).drop x := by
      rw [hd, join_cons, List.append_assoc]
      exact List.prefix_append _ _
    have hp' := hp.add hr (hf f (List.mem_cons_self ..)) hpre
    have hs' : ∀ p ∈ places ++ [⟨x, f⟩], p.stop ≤ x + f.size := by
      intro p hm
      rcases List.mem_append.mp hm with hm | hm
      · exact Nat.le_trans (hs p hm) (Nat.le_add_right _ _)
      · rw [List.mem_singleton.mp hm]
        exact Nat.le_refl _
    have hl' : (places ++ [Place.mk x f]).getLast?.map Place.stop = some (x + f.size) := by
      rw [List.getLast?_concat]
      rfl
    have hd' : ((Stream.new h).accepted (calls ++ [c])).drop (x + f.size) = join frames ++ tail := by
      rw [← List.drop_drop, hd, join_cons, List.append_assoc, List.drop_left' (length_toBytes f)]
    obtain ⟨added, hmap, hadded, hready⟩ := Provenance.addAll hb hbase frames hp' hs'
      (Nat.le_trans hx (Nat.le_add_right _ _)) (Or.inr hl')
      (fun g hg => hf g (List.mem_cons_of_mem _ hg)) hd'
    rw [List.append_assoc] at hadded hready
    refine ⟨Place.mk x f :: added, ?_, hadded, ?_⟩
    · rw [List.map_cons, hmap]
    · rw [join_cons, List.length_append, length_toBytes, ← Nat.add_assoc]
      exact hready

/-- What came to continue the frame in progress adds that frame or none. -/
theorem Provenance.addContinued {part bytes next : Bytes} {lead : List Frame}
    (hp : Provenance h calls places) (hr : part ≠ [] → Ready h calls places x)
    (hpre : part ++ bytes <+: ((Stream.new h).accepted calls).drop x)
    (hc : Continued part bytes next lead) :
    ∃ added, added.map Place.frame = lead ∧ Provenance h calls (places ++ added) ∧
      ∀ p ∈ added, p.stop ≤ x + (part ++ bytes).length := by
  cases hc with
  | kept _ =>
    refine ⟨[], rfl, ?_, fun p hm => absurd hm List.not_mem_nil⟩
    rwa [List.append_nil]
  | dropped =>
    refine ⟨[], rfl, ?_, fun p hm => absurd hm List.not_mem_nil⟩
    rwa [List.append_nil]
  | completed f rest hne hf he =>
    have hframe : f.toBytes <+: part ++ bytes := by
      rw [he]
      exact List.prefix_append _ _
    refine ⟨[⟨x, f⟩], rfl, hp.add (hr hne) hf (hframe.trans hpre), fun p hm => ?_⟩
    have hl := hframe.length_le
    rw [length_toBytes] at hl
    rw [List.mem_singleton.mp hm]
    exact Nat.add_le_add_left hl x

end Places

/-- What holds between calls. The bytes held are the last that were accepted, and the next frame
may start where they begin. -/
structure Sound (h : Nat) (calls : List Intake) (places : List Place) (part : Bytes) : Prop where
  keeps : ((Stream.new h).after calls).Keeps (if lost h calls then 0 else h - base h calls) part
  suffix : part <:+ (Stream.new h).accepted calls
  provenance : Provenance h calls places
  ready : part ≠ [] → Ready h calls places (base h calls - part.length)

theorem sound_nil (h : Nat) : Sound h [] [] [] where
  keeps := Stream.keeps_new h
  suffix := List.nil_suffix
  provenance := provenance_nil
  ready := fun hne => absurd rfl hne

section Call

variable {h : Nat} {calls : List Intake} {places : List Place} {part : Bytes}

/-- The bytes held and those of a call are the last that were accepted. -/
theorem Sound.drop_accepted (hs : Sound h calls places part) {held : Bytes}
    (hh : held = part ∨ held = []) {c : Intake} (hc : (report h calls c).isDuplicate = false) :
    ((Stream.new h).accepted (calls ++ [c])).drop (base h calls - held.length) =
      held ++ c.data := by
  have hsuf : held <:+ (Stream.new h).accepted calls := by
    rcases hh with rfl | rfl
    · exact hs.suffix
    · exact List.nil_suffix
  have hd : ((Stream.new h).accepted calls).drop (base h calls - held.length) = held :=
    (List.suffix_iff_eq_drop.mp hsuf).symm
  have hle : base h calls - held.length ≤ ((Stream.new h).accepted calls).length := Nat.sub_le _ _
  rw [accepted_snoc, hc, List.drop_append_of_le_length hle, hd]
  rfl

/-- A refused call changes nothing. -/
theorem Sound.refused (hs : Sound h calls places part) {c : Intake}
    (hd : (report h calls c).isDuplicate = true) (hl : (report h calls c).losesTrack = false)
    (hc : ((Stream.new h).after calls).intake c = ((Stream.new h).after calls, report h calls c)) :
    Sound h (calls ++ [c]) places part := by
  have ha : (Stream.new h).accepted (calls ++ [c]) = (Stream.new h).accepted calls := by
    rw [accepted_snoc, hd]
    exact List.append_nil _
  have hb : base h (calls ++ [c]) = base h calls := congrArg List.length ha
  refine ⟨?_, ?_, hs.provenance.later c, fun hne => ?_⟩
  · rw [lost_snoc, hl, Bool.or_false, hb, Stream.after_append]
    show ((((Stream.new h).after calls).intake c).1).Keeps _ _
    rw [hc]
    exact hs.keeps
  · rw [ha]
    exact hs.suffix
  · have hpos := List.length_pos_iff.mpr hne
    have hle := hs.suffix.length_le
    rw [hb]
    refine (hs.ready hne).later ?_ hl
    unfold base
    omega

theorem base_snoc {c : Intake} (hc : (report h calls c).isDuplicate = false) :
    base h (calls ++ [c]) = base h calls + c.data.length := by
  unfold base
  rw [accepted_snoc, hc, List.length_append]
  rfl

/-- How much of the file header is to come is told by the reports. -/
theorem leftAfter_eq (h : Nat) (calls : List Intake) (c : Intake) (n : Nat) :
    Stream.leftAfter (report h calls c) (if lost h calls then 0 else h - base h calls) n =
      if lost h (calls ++ [c]) then 0 else h - base h calls - n := by
  rw [Stream.leftAfter, lost_snoc]
  cases (report h calls c).losesTrack <;> cases lost h calls <;> simp

/-- The frame in progress that a call continues. -/
theorem Sound.ready_held (hs : Sound h calls places part) {c : Intake} {held : Bytes}
    (hh : held = part ∨ held = []) (hl : (report h calls c).losesTrack = true → held = []) :
    held ≠ [] → Ready h (calls ++ [c]) places (base h calls - held.length) := by
  intro hne
  have hpart : held = part := hh.resolve_right hne
  have hfalse : (report h calls c).losesTrack = false := Bool.eq_false_iff.mpr fun ht => hne (hl ht)
  subst hpart
  have hpos := List.length_pos_iff.mpr hne
  have hle := hs.suffix.length_le
  refine (hs.ready hne).later ?_ hfalse
  unfold base
  omega

/-- A call whose bytes only continue the frame in progress. -/
theorem Sound.continued (hs : Sound h calls places part) {c : Intake} {held next : Bytes}
    {frames : List Frame} (hd : (report h calls c).isDuplicate = false)
    (hh : held = part ∨ held = []) (hl : (report h calls c).losesTrack = true → held = [])
    (hk : ((Stream.new h).after (calls ++ [c])).Keeps
      (if lost h (calls ++ [c]) then 0 else h - base h (calls ++ [c])) next)
    (hc : Continued held c.data next frames) :
    ∃ added, added.map Place.frame = frames ∧ Sound h (calls ++ [c]) (places ++ added) next := by
  have hdrop := hs.drop_accepted hh hd
  have hready := hs.ready_held hh hl
  have hpre : held ++ c.data <+: ((Stream.new h).accepted (calls ++ [c])).drop
      (base h calls - held.length) := ⟨[], by rw [List.append_nil, hdrop]⟩
  obtain ⟨added, hmap, hadded, -⟩ := (hs.provenance.later c).addContinued hready hpre hc
  refine ⟨added, hmap, hk, ?_, hadded, fun hne => ?_⟩
  · cases hc with
    | kept _ =>
      rw [← hdrop]
      exact List.drop_suffix _ _
    | dropped => exact List.nil_suffix
    | completed f rest _ _ _ => exact List.nil_suffix
  · cases hc with
    | kept hnil =>
      have hheld : held ≠ [] := by
        rintro rfl
        rw [hnil rfl] at hne
        exact hne rfl
      have hx : base h (calls ++ [c]) - (held ++ c.data).length = base h calls - held.length := by
        rw [base_snoc hd, List.length_append]
        omega
      rw [List.map_eq_nil_iff.mp hmap, List.append_nil, hx]
      exact hready hheld
    | dropped => exact absurd rfl hne
    | completed f rest _ _ _ => exact absurd rfl hne

/-- A call in which frames start. -/
theorem Sound.started (hs : Sound h calls places part) {c : Intake} {held middle next : Bytes}
    {o : Nat} {lead frames : List Frame} (hd : (report h calls c).isDuplicate = false)
    (hh : held = part ∨ held = []) (hl : (report h calls c).losesTrack = true → held = [])
    (hk : ((Stream.new h).after (calls ++ [c])).Keeps
      (if lost h (calls ++ [c]) then 0 else h - base h (calls ++ [c])) next)
    (ho : o ≤ c.data.length) (hb : boundary? h calls c = some (base h calls + o))
    (hc : Continued held (c.data.take o) middle lead) (hst : Started (c.data.drop o) next frames) :
    ∃ added, added.map Place.frame = lead ++ frames ∧
      Sound h (calls ++ [c]) (places ++ added) next := by
  obtain ⟨hproper, tail, htail, hnext⟩ := hst
  have hlen : held.length ≤ base h calls := by
    rcases hh with rfl | rfl
    · exact hs.suffix.length_le
    · exact Nat.zero_le _
  have hpre : held ++ c.data.take o <+: ((Stream.new h).accepted (calls ++ [c])).drop
      (base h calls - held.length) := by
    rw [hs.drop_accepted hh hd]
    exact (List.prefix_append_right_inj held).mpr (List.take_prefix o _)
  obtain ⟨first, hfirst, hp, hstop⟩ :=
    (hs.provenance.later c).addContinued (hs.ready_held hh hl) hpre hc
  have hstops : ∀ p ∈ places ++ first, p.stop ≤ base h calls + o := by
    intro p hm
    rcases List.mem_append.mp hm with hm | hm
    · exact Nat.le_trans (hs.provenance.stop_le hm).2 (Nat.le_add_right _ _)
    · have hle := hstop p hm
      rw [List.length_append, List.length_take, Nat.min_eq_left ho] at hle
      omega
  have hdata := hs.drop_accepted (Or.inr rfl) hd
  rw [List.length_nil, Nat.sub_zero, List.nil_append] at hdata
  have hdrop : ((Stream.new h).accepted (calls ++ [c])).drop (base h calls + o) =
      join frames ++ tail := by
    rw [← List.drop_drop, hdata, htail]
  obtain ⟨rest, hrest, hprov, hready⟩ := hp.addAll hb (Nat.le_add_right _ _) frames hstops
    (Nat.le_refl _) (Or.inl rfl) hproper hdrop
  rw [List.append_assoc] at hprov hready
  refine ⟨first ++ rest, ?_, hk, ?_, hprov, fun hne => ?_⟩
  · rw [List.map_append, hfirst, hrest]
  · rcases hnext with rfl | rfl
    · refine List.IsSuffix.trans ?_ (List.drop_suffix (base h calls + o) _)
      rw [hdrop]
      exact List.suffix_append _ _
    · exact List.nil_suffix
  · have htail' : next = tail := hnext.resolve_right hne
    have hl' := congrArg List.length htail
    rw [List.length_drop, List.length_append] at hl'
    have hx : base h (calls ++ [c]) - next.length = base h calls + o + (join frames).length := by
      rw [base_snoc hd, htail']
      omega
    rw [hx]
    exact hready

/-- **A call keeps what holds between calls, and its frames are added.** -/
theorem Sound.call (hs : Sound h calls places part) (c : Intake) :
    ∃ added next, added.map Place.frame = (report h calls c).frames ∧
      Sound h (calls ++ [c]) (places ++ added) next := by
  rcases Stream.intake_taken hs.keeps c with ⟨hdup, hlost, hsame, hframes⟩ |
    ⟨hdup, held, start, next, hheld, hl, hkeeps, htaken, hstart⟩
  · refine ⟨[], part, hframes.symm, ?_⟩
    rw [List.append_nil]
    exact hs.refused hdup hlost (Prod.ext hsame rfl)
  · have hk : ((Stream.new h).after (calls ++ [c])).Keeps
        (if lost h (calls ++ [c]) then 0 else h - base h (calls ++ [c])) next := by
      rw [base_snoc hdup, ← Nat.sub_sub, ← leftAfter_eq, Stream.after_append]
      exact hkeeps
    have hb : ∀ o ∈ start, boundary? h calls c = some (base h calls + o) := by
      intro o ho
      have hleft := leftAfter_eq h calls c 0
      rw [Nat.sub_zero] at hleft
      have hat : c.start? (headerLeft h calls c) = some o := by
        unfold headerLeft
        rw [← hleft]
        exact hstart o ho
      unfold boundary?
      rw [hat]
      rfl
    change Taken held c.data start next (report h calls c).frames at htaken
    generalize (report h calls c).frames = frames at htaken ⊢
    cases htaken with
    | continued hc =>
      obtain ⟨added, hmap, hsound⟩ := hs.continued hdup hheld hl hk hc
      exact ⟨added, next, hmap, hsound⟩
    | started ho hc hst =>
      obtain ⟨added, hmap, hsound⟩ := hs.started hdup hheld hl hk ho (hb _ rfl) hc hst
      exact ⟨added, next, hmap, hsound⟩

/-- What holds between calls holds throughout a run. -/
theorem Sound.run : ∀ (more : List Intake) {calls : List Intake} {places : List Place}
    {part : Bytes}, Sound h calls places part →
    ∃ added, added.map Place.frame = ((Stream.new h).after calls).emitted more ∧
      Provenance h (calls ++ more) (places ++ added)
  | [], calls, places, part, hs => by
    refine ⟨[], rfl, ?_⟩
    rw [List.append_nil, List.append_nil]
    exact hs.provenance
  | c :: more, calls, places, part, hs => by
    obtain ⟨added, next, hmap, hcall⟩ := hs.call c
    obtain ⟨rest, hrest, hp⟩ := Sound.run more hcall
    rw [List.append_assoc, List.append_assoc] at hp
    refine ⟨added ++ rest, ?_, hp⟩
    rw [List.map_append, hmap, hrest, Stream.after_append, Stream.emitted_cons]
    rfl

end Call

/-- **Every frame stands in the accepted bytes**, whatever the stream was called with. -/
theorem Stream.provenance (h : Nat) (calls : List Intake) :
    ∃ places : List Place, places.map Place.frame = (Stream.new h).emitted calls ∧
      Provenance h calls places :=
  (sound_nil h).run calls

end Log
end FlightLink
