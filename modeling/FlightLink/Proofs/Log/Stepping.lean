/-
# Runs of a registry

Whatever is done to a registry, one step after another, it reflects the changes made to it
(`Registry.Reflects.step`). A step adds changes and takes none back, and a new mailbox gets a number
that none had before. So a mailbox that once is not the subscriber of a kind never is again
(`latest_append_mailbox`), and a mailbox that is nobody's subscriber may lose its receiver at any
time: no later message goes to anybody else for that (`Registry.Reflects.subscriber_closeMailbox`).

The registry of a receiver is run by what is done to the receiver (`Receiver.registry_operateAll`).

Key definitions: `Registry.Step`, `Registry.step`, `Registry.run`, `Registry.MadeFor`.
Key theorems: `Registry.Reflects.step`, `Registry.Reflects.run`, `Registry.MadeFor.inPlace_of_run`,
`Registry.Reflects.subscriber_closeMailbox`, `Receiver.registry_operateAll`.
-/
import FlightLink.Proofs.Log.Succession

namespace FlightLink
namespace Log

/-! ### A mailbox is put in place once -/

section Changes

variable {H : Type}

theorem opened_append (recent earlier : List (Change H)) :
    opened (recent ++ earlier) = opened recent + opened earlier := List.countP_append

/-- **No later change puts an old mailbox in place.** -/
theorem latest_append_mailbox {kind : Kind} {number : Nat} {earlier : List (Change H)}
    (hold : number < opened earlier) : ∀ {recent : List (Change H)},
      latest kind (recent ++ earlier) = some (.mailbox number) →
      latest kind earlier = some (.mailbox number)
  | [], hl => hl
  | c :: recent, hl => by
    rw [List.cons_append, latest_cons] at hl
    split at hl
    · cases c with
      | openMailbox kind' capacity =>
        -- The new mailbox has a number above the old one's.
        injection hl with hl
        injection hl with hl
        rw [opened_append] at hl
        omega
      | _ => cases hl
    · exact latest_append_mailbox hold hl

/-- A new mailbox has the messages of its kind, and no others. -/
theorem latest_openMailbox {kind k : Kind} {capacity : Nat} {earlier : List (Change H)} :
    latest k (.openMailbox kind capacity :: earlier) = some (.mailbox (opened earlier)) ↔
      k = kind := by
  rw [latest_cons]
  constructor
  · intro hl
    split at hl
    · rename_i hk
      exact (Option.some.inj hk).symm
    · exact absurd (latest_mailbox hl) (Nat.lt_irrefl _)
  · intro hk
    exact if_pos (congrArg some hk.symm)

/-- What a subscriber answers does not depend on the receivers of mailboxes that are not its own. -/
theorem reactionOf_congr [Reactive H] {gone gone' : Nat → Bool} {taker : Option (Subscriber H)}
    (h : ∀ number, taker = some (.mailbox number) → gone number = gone' number)
    (seen : Kind → Bool) (memory : Reactive.Memory H) (m : Message) :
    reactionOf gone seen memory m taker = reactionOf gone' seen memory m taker := by
  rcases taker with _ | (handler | ⟨kind, handler⟩ | number)
  · rfl
  · rfl
  · rfl
  · unfold reactionOf
    dsimp only
    rw [h number rfl]

end Changes

namespace Registry

variable {H : Type}

/-! ### Steps -/

/-- What can be done to a registry. -/
inductive Step (H : Type) where
  | change (c : Change H)
  | dispatch (m : Message)
  /-- Lets the handler for chunks look at one. -/
  | lookAt (chunk : Chunk)
  /-- Reads from a mailbox. -/
  | receive (number : Nat)
  /-- Lets the receiver of a mailbox go. -/
  | closeMailbox (number : Nat)
  deriving DecidableEq, Repr

/-- The changes that a step makes after these, and the memory after it. -/
def Step.answer [Reactive H] (changes : List (Change H)) (gone : Nat → Bool)
    (memory : Reactive.Memory H) : Step H → Answer H
  | change c => ([c], memory)
  | dispatch m => reactionOf gone (occupied changes) memory m (latest m.kind changes)
  | lookAt chunk => answerOf (occupied changes) memory (.chunk chunk) (latestLooker changes)
  | _ => ([], memory)

/-- The mailboxes without receiver after a step. -/
def Step.lost (changes : List (Change H)) (gone : Nat → Bool) : Step H → Nat → Bool
  | closeMailbox number =>
    if number < opened changes then fun k => k == number || gone k else gone
  | _ => gone

/-- A mailbox that was made loses its receiver when it is closed. -/
theorem Step.lost_iff {changes : List (Change H)} {gone : Nat → Bool} {number : Nat}
    (hn : number < opened changes) (s : Step H) :
    s.lost changes gone number = true ↔ gone number = true ∨ s = .closeMailbox number := by
  cases s with
  | closeMailbox k =>
    unfold lost
    dsimp only
    by_cases hk : k < opened changes
    · rw [if_pos hk, Bool.or_eq_true, beq_iff_eq, Step.closeMailbox.injEq, or_comm,
        eq_comm (a := number)]
    · have hne : Step.closeMailbox k ≠ (.closeMailbox number : Step H) := by
        rintro ⟨⟩
        exact hk hn
      rw [if_neg hk, or_iff_left hne]
  | _ => exact (or_iff_left nofun).symm

/-- Mailboxes lose their receivers apart from each other. -/
theorem Step.lost_congr {changes : List (Change H)} {gone gone' : Nat → Bool} {k : Nat}
    (h : gone k = gone' k) (s : Step H) : s.lost changes gone k = s.lost changes gone' k := by
  cases s with
  | closeMailbox number =>
    unfold lost
    dsimp only
    split
    · exact congrArg (k == number || ·) h
    · exact h
  | _ => exact h

variable [Reactive H]

/-- The receiver of a mailbox is there. -/
def hasReceiver (g : Registry H) (number : Nat) : Bool :=
  match g.mailboxes[number]? with
  | some box => box.connected
  | none => false

theorem hasReceiver_of_getElem? {g : Registry H} {number : Nat} {box : Mailbox Message}
    (hbox : g.mailboxes[number]? = some box) : g.hasReceiver number = box.connected := by
  unfold hasReceiver
  rw [hbox]

/-- A mailbox has its receiver until that goes away. -/
theorem Reflects.hasReceiver {g : Registry H} {changes : List (Change H)} {gone : Nat → Bool}
    (h : g.Reflects changes gone) {number : Nat} (hn : number < g.mailboxes.length) :
    g.hasReceiver number = !gone number := by
  have hbox := List.getElem?_eq_getElem hn
  rw [hasReceiver_of_getElem? hbox, h.connected number _ hbox]

/-- The registry after a step. -/
def step (g : Registry H) : Step H → Registry H
  | .change c => g.apply c
  | .dispatch m => (g.dispatch m).1
  | .lookAt chunk => (g.lookAt chunk).1
  | .receive number => g.updateMailbox number fun box => box.receive.2
  | .closeMailbox number => g.closeMailbox number

/-- The registry after steps. -/
def run : Registry H → List (Step H) → Registry H
  | g, [] => g
  | g, s :: steps => (g.step s).run steps

theorem run_append : ∀ (g : Registry H) (first later : List (Step H)),
    g.run (first ++ later) = (g.run first).run later
  | _, [], _ => rfl
  | g, s :: first, later => run_append (g.step s) first later

/-! ### The history of a run -/

namespace Reflects

variable {g : Registry H} {changes : List (Change H)} {gone : Nat → Bool}

/-- **The changes of a step come on top of the changes before it**, and what it answers is
remembered. -/
theorem step (h : g.Reflects changes gone) (s : Step H) :
    (g.step s).Reflects ((s.answer changes gone g.memory).1.reverse ++ changes)
        (s.lost changes gone) ∧
      (g.step s).memory = (s.answer changes gone g.memory).2 := by
  cases s with
  | change c => exact ⟨h.apply c, memory_foldl [c] g⟩
  | dispatch m => exact (h.dispatch m).2
  | lookAt chunk => exact (h.lookAt chunk).2
  | receive number => exact ⟨h.receive number, rfl⟩
  | closeMailbox number =>
    refine ⟨?_, rfl⟩
    unfold Step.lost
    dsimp only
    split
    · exact h.closeMailbox ‹_›
    · rename_i hn
      show (g.closeMailbox number).Reflects _ _
      rw [h.closeMailbox_of_le (Nat.le_of_not_lt hn)]
      exact h

/-- So do those of a run, and the mailboxes closed in it have no receiver any more. -/
theorem run : ∀ (steps : List (Step H)) {g : Registry H} {changes : List (Change H)}
    {gone : Nat → Bool}, g.Reflects changes gone → ∃ recent gone',
      (g.run steps).Reflects (recent ++ changes) gone' ∧ ∀ number, number < opened changes →
        (gone' number = true ↔ gone number = true ∨ Step.closeMailbox number ∈ steps)
  | [], _, _, gone, h => ⟨[], gone, h, fun _ _ => (or_iff_left List.not_mem_nil).symm⟩
  | s :: steps, g, changes, gone, h => by
    obtain ⟨recent, gone', hrun, hgone⟩ := run steps (h.step s).1
    refine ⟨recent ++ (s.answer changes gone g.memory).1.reverse, gone', ?_, fun number hn => ?_⟩
    · rw [List.append_assoc]
      exact hrun
    · have hstill : number < opened ((s.answer changes gone g.memory).1.reverse ++ changes) := by
        rw [opened_append]
        omega
      rw [hgone number hstill, s.lost_iff hn, List.mem_cons, or_assoc, eq_comm (a := s)]

/-- Two registries with the same changes have the same subscribers. -/
private theorem subscriber_eq {g' : Registry H} {gone' : Nat → Bool}
    (h : g.Reflects changes gone) (h' : g'.Reflects changes gone') :
    g'.subscriber = g.subscriber :=
  funext fun kind => (h'.subscriber kind).trans (h.subscriber kind).symm

/-- Two runs of the same steps stay alike if they only differ in the receiver of a mailbox that is
nobody's subscriber. -/
private theorem subscriber_run_eq {number : Nat} : ∀ (steps : List (Step H)) {g g' : Registry H}
    {changes : List (Change H)} {gone gone' : Nat → Bool}, g.Reflects changes gone →
      g'.Reflects changes gone' → g'.memory = g.memory → (∀ k, k ≠ number → gone k = gone' k) →
      number < opened changes → (∀ kind, latest kind changes ≠ some (.mailbox number)) →
      (g'.run steps).subscriber = (g.run steps).subscriber
  | [], _, _, _, _, _, h, h', _, _, _, _ => h.subscriber_eq h'
  | s :: steps, g, g', changes, gone, gone', h, h', hmemory, hgone, hmade, hnone => by
    -- Both steps answer the same: a message goes to the same subscriber, which is not this mailbox.
    have hsame : s.answer changes gone' g'.memory = s.answer changes gone g.memory := by
      rw [hmemory]
      cases s with
      | dispatch m =>
        refine reactionOf_congr (fun k hk => (hgone k ?_).symm) _ _ m
        rintro rfl
        exact hnone m.kind hk
      | _ => rfl
    obtain ⟨hnext, hleft⟩ := h.step s
    obtain ⟨hnext', hleft'⟩ := h'.step s
    rw [hsame] at hnext' hleft'
    refine subscriber_run_eq steps hnext hnext' (hleft'.trans hleft.symm)
      (fun k hk => s.lost_congr (hgone k hk)) ?_
      fun kind hl => hnone kind (latest_append_mailbox hmade hl)
    rw [opened_append]
    omega

/-- **Whether a mailbox that is nobody's subscriber has its receiver makes no difference** to who
gets what later. -/
theorem subscriber_closeMailbox (h : g.Reflects changes gone) {number : Nat}
    (hn : number < g.mailboxes.length) (hnone : ∀ kind, g.subscriber kind ≠ some (.mailbox number))
    (later : List (Step H)) :
    ((g.closeMailbox number).run later).subscriber = (g.run later).subscriber := by
  rw [h.mailboxes] at hn
  refine subscriber_run_eq later h (h.closeMailbox hn) rfl (fun k hk => ?_) hn fun kind => ?_
  · rw [beq_eq_false_iff_ne.mpr hk]
    rfl
  · rw [← h.subscriber]
    exact hnone kind

end Reflects

/-! ### The mailbox of a subscription -/

/-- This mailbox was made for the kind: it is there, and no other kind has it. -/
structure MadeFor (g : Registry H) (kind : Kind) (number : Nat) : Prop where
  reflects : ∃ changes gone, g.Reflects changes gone
  lt_length : number < g.mailboxes.length
  only : ∀ {k}, g.subscriber k = some (.mailbox number) → k = kind

namespace MadeFor

variable {g : Registry H} {kind : Kind} {number : Nat}

/-- A new mailbox is made for the kind it is opened for. -/
theorem openMailbox {changes : List (Change H)} {gone : Nat → Bool} (h : g.Reflects changes gone)
    (kind : Kind) (capacity : Nat) :
    (g.openMailbox kind capacity).1.MadeFor kind g.mailboxes.length := by
  have hnext : (g.openMailbox kind capacity).1.Reflects
      (.openMailbox kind capacity :: changes) gone :=
    h.apply (.openMailbox kind capacity)
  refine ⟨⟨_, gone, hnext⟩, ?_, fun hk => ?_⟩
  · rw [hnext.mailboxes, h.mailboxes, opened_cons]
    exact Nat.lt_succ_self _
  · rw [hnext.subscriber, h.mailboxes] at hk
    exact latest_openMailbox.mp hk

/-- **A mailbox that is the subscriber now was it all along.** -/
theorem inPlace_of_run (h : g.MadeFor kind number) {steps : List (Step H)} {k : Kind}
    (hk : (g.run steps).subscriber k = some (.mailbox number)) :
    g.subscriber k = some (.mailbox number) := by
  obtain ⟨changes, gone, hg⟩ := h.reflects
  obtain ⟨recent, gone', hrun, -⟩ := hg.run steps
  rw [hrun.subscriber] at hk
  rw [hg.subscriber]
  exact latest_append_mailbox (hg.mailboxes ▸ h.lt_length) hk

/-- It is made for its kind whatever is done. -/
theorem run (h : g.MadeFor kind number) (steps : List (Step H)) :
    (g.run steps).MadeFor kind number := by
  obtain ⟨changes, gone, hg⟩ := h.reflects
  obtain ⟨recent, gone', hrun, -⟩ := hg.run steps
  refine ⟨⟨_, gone', hrun⟩, ?_, fun hk => h.only (h.inPlace_of_run hk)⟩
  have hlt := h.lt_length
  rw [hg.mailboxes] at hlt
  rw [hrun.mailboxes, opened_append]
  omega

/-- It has its receiver as long as that is not let go. -/
theorem hasReceiver_run (h : g.MadeFor kind number) (steps : List (Step H)) :
    (g.run steps).hasReceiver number = true ↔
      g.hasReceiver number = true ∧ Step.closeMailbox number ∉ steps := by
  have hlater := (h.run steps).lt_length
  obtain ⟨changes, gone, hg⟩ := h.reflects
  obtain ⟨recent, gone', hrun, hgone⟩ := hg.run steps
  rw [hrun.hasReceiver hlater, hg.hasReceiver h.lt_length, Bool.not_eq_true', Bool.not_eq_true',
    ← Bool.not_eq_true, hgone number (hg.mailboxes ▸ h.lt_length), not_or, Bool.not_eq_true]

/-- **It is sent the messages of its kind while it is the subscriber**, and nothing else. -/
theorem posted_iff (h : g.MadeFor kind number) (m : Message) :
    (Receiver.dispatch g m).2.1 = [.posted number m] ↔
      m.kind = kind ∧ g.subscriber kind = some (.mailbox number) := by
  obtain ⟨changes, gone, hg⟩ := h.reflects
  rw [(hg.dispatch m).1, ← hg.subscriber]
  constructor
  · intro hposted
    have hm : g.subscriber m.kind = some (.mailbox number) := by
      revert hposted
      rcases g.subscriber m.kind with _ | (handler | ⟨k, handler⟩ | n) <;> rintro ⟨⟩
      rfl
    have hk := h.only hm
    exact ⟨hk, hk ▸ hm⟩
  · rintro ⟨rfl, hm⟩
    rw [hm]
    rfl

/-- Once it is not the subscriber it never is again, and the receiver may go at any time: who gets
what is the same. -/
theorem out_of_place (h : g.MadeFor kind number) (hout : g.subscriber kind ≠ some (.mailbox number))
    (later : List (Step H)) :
    (g.run later).subscriber kind ≠ some (.mailbox number) ∧
      ((g.closeMailbox number).run later).subscriber = (g.run later).subscriber := by
  obtain ⟨changes, gone, hg⟩ := h.reflects
  refine ⟨fun hk => hout (h.inPlace_of_run hk), ?_⟩
  refine hg.subscriber_closeMailbox h.lt_length (fun k hk => hout ?_) later
  exact h.only hk ▸ hk

end MadeFor

end Registry

/-! ### Runs of a receiver -/

namespace Receiver

variable {H : Type} [Reactive H]

/-- What an operation does to the registry of a receiver: a chunk is looked at, and then gives its
messages one after another. -/
def steps (r : Receiver H) : Operation H → List (Registry.Step H)
  | .change c => [.change c]
  | .dispatch m => [.dispatch m]
  | .ingest chunk => .lookAt chunk :: (r.messages chunk).map .dispatch
  | .receive number => [.receive number]
  | .closeMailbox number => [.closeMailbox number]

theorem registry_deliverAll (config : StreamConfig) (sequence : UInt16) :
    ∀ (frames : List Frame) (g : Registry H), (deliverAll config sequence g frames).1 =
      g.run ((frames.filterMap (Frame.message? config.legacyKinds)).map .dispatch)
  | [], _ => rfl
  | f :: frames, g => by
    have hf := interpret_toOption config f
    unfold deliverAll deliver
    rw [List.filterMap_cons, ← hf]
    cases config.interpret f with
    | error skip => exact registry_deliverAll config sequence frames g
    | ok m => exact registry_deliverAll config sequence frames (dispatch g m).1

/-- An operation on a receiver is a run of its registry. -/
theorem registry_operate (r : Receiver H) (op : Operation H) :
    (r.operate op).registry = r.registry.run (r.steps op) := by
  cases op with
  | ingest chunk => exact registry_deliverAll r.config chunk.sequence _ (r.registry.lookAt chunk).1
  | _ => rfl

/-- What operations do to the registry. -/
def stepsAll (r : Receiver H) : List (Operation H) → List (Registry.Step H)
  | [] => []
  | op :: ops => r.steps op ++ (r.operate op).stepsAll ops

/-- **A run of a receiver is a run of its registry.** -/
theorem registry_operateAll : ∀ (ops : List (Operation H)) (r : Receiver H),
    (r.operateAll ops).registry = r.registry.run (r.stepsAll ops)
  | [], _ => rfl
  | op :: ops, r => by
    show ((r.operate op).operateAll ops).registry =
      r.registry.run (r.steps op ++ (r.operate op).stepsAll ops)
    rw [Registry.run_append, ← registry_operate, registry_operateAll ops (r.operate op)]

end Receiver

end Log
end FlightLink
