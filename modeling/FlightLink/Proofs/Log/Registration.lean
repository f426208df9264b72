/-
# The registry keeps the latest registration of every kind

A registry is changed by the program, by a subscriber that has just been given a message, and by
the handler that has just looked at a chunk. The subscriber of a kind is the one that the latest
change of this kind installed (`latest`), the handler for chunks is the latest one of these
(`latestLooker`), and nothing else about the changes matters. So a registry is known from the
changes made to it, newest first, from the mailboxes whose receivers are gone
(`Registry.Reflects`), and from what its handlers remember. A message goes to the latest subscriber
of its kind, whose own changes then come on top (`Registry.Reflects.dispatch`); so do those of the
handler that looks at a chunk (`Registry.Reflects.lookAt`).

Key definitions: `Change.kind?`, `Change.installs`, `latest`, `latestLooker`, `occupied`, `Answer`,
`answerOf`, `reactionOf`, `Effect.handing`, `Registry.Reflects`.
Key theorems: `latest_append_of_ne`, `latest_typed`, `Registry.Reflects.apply`,
`Registry.Reflects.post`, `Registry.Reflects.dispatch`, `Registry.Reflects.lookAt`.
-/
import FlightLink.Log.Receiver

namespace FlightLink
namespace Log

section Changes

variable {H : Type}

/-! ### What changes leave behind -/

namespace Change

/-- The kind whose subscriber is changed. Who looks at chunks is no subscriber. -/
def kind? : Change H → Option Kind
  | subscribe kind _ => some kind
  | subscribeTyped kind _ => some kind
  | openMailbox kind _ => some kind
  | unsubscribe kind => some kind
  | onChunk _ => none
  | clearChunkHandler => none

/-- A mailbox is made. -/
def opens : Change H → Bool
  | openMailbox _ _ => true
  | _ => false

/-- The subscriber that the kind has after the change, when there were so many mailboxes. -/
def installs (mailboxes : Nat) : Change H → Option (Subscriber H)
  | subscribe _ h => some (.handler h)
  | subscribeTyped kind h => some (.typed kind h)
  | openMailbox _ _ => some (.mailbox mailboxes)
  | _ => none

/-- The handler for chunks after the change, if it is one of that handler. -/
def looker? : Change H → Option (Option H)
  | onChunk h => some (some h)
  | clearChunkHandler => some none
  | _ => none

end Change

/-- How many mailboxes changes made. -/
def opened (changes : List (Change H)) : Nat := changes.countP Change.opens

/-- The subscriber of a kind after changes, newest first: what the newest change of this kind
installed. -/
def latest (kind : Kind) : List (Change H) → Option (Subscriber H)
  | [] => none
  | c :: earlier => if c.kind? = some kind then c.installs (opened earlier) else latest kind earlier

/-- The handler for chunks after changes, newest first. -/
def latestLooker : List (Change H) → Option H
  | [] => none
  | c :: earlier => c.looker?.getD (latestLooker earlier)

/-- The kinds that have a subscriber after changes. -/
def occupied (changes : List (Change H)) (kind : Kind) : Bool := (latest kind changes).isSome

theorem latest_cons (kind : Kind) (c : Change H) (earlier : List (Change H)) :
    latest kind (c :: earlier) =
      if c.kind? = some kind then c.installs (opened earlier) else latest kind earlier := rfl

theorem opened_cons (c : Change H) (earlier : List (Change H)) :
    opened (c :: earlier) = opened earlier + if c.opens then 1 else 0 := List.countP_cons

/-- Changes of other kinds leave the subscriber of a kind alone. -/
theorem latest_append_of_ne {kind : Kind} (earlier : List (Change H)) :
    ∀ {recent : List (Change H)}, (∀ c ∈ recent, c.kind? ≠ some kind) →
      latest kind (recent ++ earlier) = latest kind earlier
  | [], _ => rfl
  | c :: recent, h => by
    rw [List.cons_append, latest_cons, if_neg (h c List.mem_cons_self)]
    exact latest_append_of_ne earlier fun d hd => h d (List.mem_cons_of_mem _ hd)

/-- If the changes of a kind are all the same one, that one decides. -/
theorem latest_append_of_eq {kind : Kind} {c : Change H} (hk : c.kind? = some kind)
    (earlier : List (Change H)) : ∀ {recent : List (Change H)}, c ∈ recent →
      (∀ d ∈ recent, d.kind? = some kind → d = c) →
      ∃ number, latest kind (recent ++ earlier) = c.installs number
  | [], hc, _ => nomatch hc
  | d :: recent, hc, h => by
    rw [List.cons_append, latest_cons]
    by_cases hd : d.kind? = some kind
    · rw [if_pos hd, h d List.mem_cons_self hd]
      exact ⟨_, rfl⟩
    · have hrest : c ∈ recent := by
        refine (List.mem_cons.mp hc).resolve_left fun he => hd ?_
        rw [← he, hk]
      rw [if_neg hd]
      exact latest_append_of_eq hk earlier hrest fun e he => h e (List.mem_cons_of_mem _ he)

/-- A handler of one kind is only ever the subscriber of this kind. -/
theorem latest_typed {kind k : Kind} {h : H} : ∀ {changes : List (Change H)},
    latest kind changes = some (.typed k h) → k = kind
  | c :: earlier, hl => by
    rw [latest_cons] at hl
    split at hl
    · rename_i hk
      cases c with
      | subscribeTyped kind' h' =>
        cases hl
        exact Option.some.inj hk
      | _ => cases hl
    · exact latest_typed hl

/-- A mailbox that subscribes was made before. -/
theorem latest_mailbox {kind : Kind} {number : Nat} : ∀ {changes : List (Change H)},
    latest kind changes = some (.mailbox number) → number < opened changes
  | c :: earlier, hl => by
    rw [latest_cons] at hl
    rw [opened_cons]
    split at hl
    · cases c with
      | openMailbox kind' capacity =>
        cases hl
        exact Nat.lt_succ_self _
      | _ => cases hl
    · exact Nat.lt_add_right _ (latest_mailbox hl)

end Changes

/-! ### What a subscriber does with a message -/

section Subscribers

variable {H : Type}

/-- The handler that is called. -/
def Subscriber.handler? : Subscriber H → Option H
  | handler h => some h
  | typed _ h => some h
  | mailbox _ => none

/-- What is seen of a message given to a subscriber, or to nobody. -/
def Effect.handing (m : Message) : Option (Subscriber H) → Effect H
  | some (.handler h) => .handlerCalled h m
  | some (.typed _ h) => .handlerCalled h m
  | some (.mailbox number) => .posted number m
  | none => .unclaimed m.kind

/-- It tells what became of a message. -/
def Effect.hands : Effect H → Bool
  | handlerCalled _ _ => true
  | posted _ _ => true
  | unclaimed _ => true
  | _ => false

theorem hands_handing (m : Message) (taker : Option (Subscriber H)) :
    (Effect.handing m taker).hands = true := by
  rcases taker with _ | (h | ⟨kind, h⟩ | number) <;> rfl

variable [Reactive H]

/-- The changes that are made in answer to a call, and the memory after it. -/
abbrev Answer (H : Type) [Reactive H] := List (Change H) × Reactive.Memory H

/-- What is answered when a handler is called, or none is, where `seen` tells the kinds that have a
subscriber. -/
def answerOf (seen : Kind → Bool) (memory : Reactive.Memory H) (cue : Cue) : Option H → Answer H
  | some h => Reactive.react h cue seen memory
  | none => ([], memory)

/-- What is answered when a message is given to a subscriber of its kind, or to nobody, where `gone`
tells the mailboxes without a receiver. -/
def reactionOf (gone : Nat → Bool) (seen : Kind → Bool) (memory : Reactive.Memory H) (m : Message) :
    Option (Subscriber H) → Answer H
  | some (.mailbox number) => (if gone number then [.unsubscribe m.kind] else [], memory)
  | taker => answerOf seen memory (.message m) (taker.bind Subscriber.handler?)

end Subscribers

/-! ### A registry and the changes made to it -/

namespace Registry

variable {H : Type} [Reactive H]

theorem post_of_getElem? {g : Registry H} {number : Nat} {box : Mailbox Message} (m : Message)
    (h : g.mailboxes[number]? = some box) :
    g.post number m =
      if (box.offer m).2 = .disconnected then g.clear m.kind
      else g.updateMailbox number fun _ => (box.offer m).1 := by
  unfold post
  rw [h]
  dsimp only
  rcases box.offer m with ⟨next, _ | _ | _⟩ <;> rfl

/-- What a registry has of the changes made to it, newest first, when the receivers of the mailboxes
`gone` went away. -/
structure Reflects (g : Registry H) (changes : List (Change H)) (gone : Nat → Bool) : Prop where
  subscriber : ∀ kind, g.subscriber kind = latest kind changes
  chunkHandler : g.chunkHandler = latestLooker changes
  mailboxes : g.mailboxes.length = opened changes
  connected : ∀ (number : Nat) (box : Mailbox Message), g.mailboxes[number]? = some box →
    box.connected = !gone number
  /-- A receiver that went away had a mailbox, so a new mailbox has its receiver. -/
  made : ∀ number, gone number = true → number < opened changes

theorem reflects_empty : (empty : Registry H).Reflects [] fun _ => false :=
  ⟨fun _ => rfl, rfl, rfl, fun _ _ h => (nomatch h), fun _ h => (nomatch h)⟩

/-- A change makes no handler remember anything. -/
theorem memory_foldl (changes : List (Change H)) (g : Registry H) :
    (changes.foldl apply g).memory = g.memory := by
  induction changes generalizing g with
  | nil => rfl
  | cons c changes ih =>
    rw [List.foldl_cons, ih]
    cases c <;> rfl

/-- Nor does a message that is sent to a mailbox. -/
theorem memory_post (g : Registry H) (number : Nat) (m : Message) :
    (g.post number m).memory = g.memory := by
  unfold post
  split
  · rfl
  · split <;> rfl

namespace Reflects

variable {g : Registry H} {changes : List (Change H)} {gone : Nat → Bool}

/-- The kinds that have a subscriber. -/
theorem isSubscribed (h : g.Reflects changes gone) : g.isSubscribed = occupied changes :=
  funext fun kind => congrArg Option.isSome (h.subscriber kind)

/-- What handlers remember is no change. -/
theorem withMemory (h : g.Reflects changes gone) (memory : Reactive.Memory H) :
    { g with memory }.Reflects changes gone :=
  ⟨h.subscriber, h.chunkHandler, h.mailboxes, h.connected, h.made⟩

/-- A change that makes no mailbox has only to be seen in the handlers. -/
private theorem of_not_opens (h : g.Reflects changes gone) {g' : Registry H} {c : Change H}
    (ho : c.opens = false) (hm : g'.mailboxes = g.mailboxes)
    (hs : ∀ kind, g'.subscriber kind = latest kind (c :: changes))
    (hl : g'.chunkHandler = latestLooker (c :: changes)) : g'.Reflects (c :: changes) gone := by
  have hopened : opened (c :: changes) = opened changes := by
    rw [opened_cons, ho]
    rfl
  refine ⟨hs, hl, ?_, fun number box hbox => ?_, fun number hn => ?_⟩
  · rw [hm, hopened]
    exact h.mailboxes
  · exact h.connected number box (hm ▸ hbox)
  · exact hopened ▸ h.made number hn

/-- Installing a subscriber without a new mailbox. -/
private theorem assigned (h : g.Reflects changes gone) {c : Change H} {kind : Kind}
    (hk : c.kind? = some kind) (hl : c.looker? = none) (ho : c.opens = false) :
    (g.assign kind (c.installs (opened changes))).Reflects (c :: changes) gone := by
  refine h.of_not_opens ho rfl (fun k => ?_) ?_
  · rw [subscriber_assign, latest_cons, h.subscriber, hk]
    simp only [Option.some.injEq, eq_comm]
  · rw [latestLooker, hl]
    exact h.chunkHandler

/-- Installing another handler for chunks, or none. -/
private theorem looked (h : g.Reflects changes gone) {c : Change H} {looker : Option H}
    (hl : c.looker? = some looker) (hk : c.kind? = none) (ho : c.opens = false) :
    { g with chunkHandler := looker }.Reflects (c :: changes) gone := by
  refine h.of_not_opens ho rfl (fun k => ?_) ?_
  · rw [latest_cons, if_neg (by simp [hk])]
    exact h.subscriber k
  · rw [latestLooker, hl]
    rfl

/-- A new mailbox is connected, and its number was not used before. -/
private theorem openMailbox (h : g.Reflects changes gone) (kind : Kind) (capacity : Nat) :
    (g.openMailbox kind capacity).1.Reflects (.openMailbox kind capacity :: changes) gone := by
  have hopened : opened (.openMailbox kind capacity :: changes) = opened changes + 1 :=
    opened_cons _ _
  refine ⟨fun k => ?_, h.chunkHandler, ?_, fun number box hbox => ?_, fun number hn => ?_⟩
  · show (if k = kind then some (.mailbox g.mailboxes.length) else g.subscriber k) = _
    rw [h.subscriber, h.mailboxes, latest_cons]
    simp only [Change.kind?, Option.some.injEq, eq_comm]
    rfl
  · show (g.mailboxes ++ [Mailbox.bounded capacity]).length = _
    rw [List.length_append, h.mailboxes, hopened]
    rfl
  · have hbox : (g.mailboxes ++ [Mailbox.bounded capacity])[number]? = some box := hbox
    rcases Nat.lt_trichotomy number g.mailboxes.length with hlt | heq | hgt
    · rw [List.getElem?_append_left hlt] at hbox
      exact h.connected number box hbox
    · rw [heq, List.getElem?_concat_length] at hbox
      cases hbox
      have hfresh : gone number = false := by
        refine Bool.eq_false_iff.mpr fun hgone => ?_
        have := h.made number hgone
        have := h.mailboxes
        omega
      rw [hfresh]
      rfl
    · rw [List.getElem?_eq_none (by rw [List.length_append, List.length_singleton]; omega)] at hbox
      cases hbox
  · exact hopened ▸ Nat.lt_succ_of_lt (h.made number hn)

/-- **A change comes on top of the changes before it.** -/
theorem apply (h : g.Reflects changes gone) (c : Change H) :
    (g.apply c).Reflects (c :: changes) gone := by
  cases c with
  | subscribe kind handler => exact h.assigned (c := .subscribe kind handler) rfl rfl rfl
  | subscribeTyped kind handler => exact h.assigned (c := .subscribeTyped kind handler) rfl rfl rfl
  | openMailbox kind capacity => exact h.openMailbox kind capacity
  | unsubscribe kind => exact h.assigned (c := .unsubscribe kind) rfl rfl rfl
  | onChunk handler => exact h.looked (c := .onChunk handler) rfl rfl rfl
  | clearChunkHandler => exact h.looked (c := .clearChunkHandler) rfl rfl rfl

/-- So do the changes that a handler makes. -/
theorem foldl (h : g.Reflects changes gone) (made : List (Change H)) :
    (made.foldl Registry.apply g).Reflects (made.reverse ++ changes) gone := by
  induction made generalizing g changes with
  | nil => exact h
  | cons c made ih =>
    rw [List.foldl_cons, List.reverse_cons, List.append_assoc]
    exact ih (h.apply c)

/-- **What a handler changes when it is called comes on top**, and it is what it answers to the
registry as it was. -/
theorem call (h : g.Reflects changes gone) (handler : H) (cue : Cue) :
    let answer := answerOf (occupied changes) g.memory cue (some handler)
    (g.call handler cue).Reflects (answer.1.reverse ++ changes) gone ∧
      (g.call handler cue).memory = answer.2 := by
  unfold Registry.call answerOf
  rw [h.isSubscribed]
  exact ⟨(h.withMemory _).foldl _, memory_foldl _ _⟩

/-- What is done inside a mailbox changes no subscription. -/
theorem updateMailbox (h : g.Reflects changes gone) (number : Nat)
    {f : Mailbox Message → Mailbox Message} (gone' : Nat → Bool)
    (hf : ∀ box, box.connected = !gone number → (f box).connected = !gone' number)
    (hother : ∀ k, k ≠ number → gone' k = gone k)
    (hmade : gone' number = true → number < opened changes) :
    (g.updateMailbox number f).Reflects changes gone' := by
  refine ⟨h.subscriber, h.chunkHandler, (List.length_modify ..).trans h.mailboxes,
    fun k box hbox => ?_, fun k hk => ?_⟩
  · have hbox : (g.mailboxes.modify number f)[k]? = some box := hbox
    rw [List.getElem?_modify] at hbox
    obtain ⟨old, hold, rfl⟩ := Option.map_eq_some_iff.mp hbox
    have hc := h.connected k old hold
    by_cases hk : number = k
    · subst hk
      rw [if_pos rfl]
      exact hf old hc
    · rw [if_neg hk, hother k (Ne.symm hk)]
      exact hc
  · by_cases hn : k = number
    · exact hn ▸ hmade (hn ▸ hk)
    · exact h.made k (hother k hn ▸ hk)

/-- Reading from a mailbox. -/
theorem receive (h : g.Reflects changes gone) (number : Nat) :
    (g.updateMailbox number fun box => box.receive.2).Reflects changes gone :=
  h.updateMailbox number gone (fun _ hb => hb) (fun _ _ => rfl) (h.made number)

/-- The receiver of a mailbox goes away. -/
theorem closeMailbox (h : g.Reflects changes gone) {number : Nat} (hn : number < opened changes) :
    (g.closeMailbox number).Reflects changes fun k => k == number || gone k := by
  refine h.updateMailbox number _ (fun box _ => ?_) (fun k hk => ?_) fun _ => hn
  · show false = _
    rw [beq_self_eq_true]
    rfl
  · rw [beq_eq_false_iff_ne.mpr hk]
    rfl

/-- A receiver that no mailbox has cannot go away. -/
theorem closeMailbox_of_le (h : g.Reflects changes gone) {number : Nat}
    (hn : opened changes ≤ number) : g.closeMailbox number = g := by
  have hmod : g.mailboxes.modify number Mailbox.disconnect = g.mailboxes :=
    List.modify_eq_self (h.mailboxes ▸ hn)
  show { g with mailboxes := g.mailboxes.modify number Mailbox.disconnect } = g
  rw [hmod]

/-- **A mailbox that subscribes ends its subscription exactly if its receiver is gone.** -/
theorem post (h : g.Reflects changes gone) {m : Message} {number : Nat}
    (hs : latest m.kind changes = some (.mailbox number)) :
    (g.post number m).Reflects
      ((if gone number then [.unsubscribe m.kind] else []) ++ changes) gone := by
  have hlt : number < g.mailboxes.length := by
    rw [h.mailboxes]
    exact latest_mailbox hs
  have hbox := List.getElem?_eq_getElem hlt
  have hconnected := h.connected number _ hbox
  rw [post_of_getElem? m hbox]
  by_cases hgone : gone number = true
  · rw [if_pos hgone, if_pos (Mailbox.offer_disconnected_iff.mpr (by rw [hconnected, hgone]; rfl))]
    exact h.apply (.unsubscribe m.kind)
  · have hstays : (g.mailboxes[number].offer m).2 ≠ .disconnected := fun hd => by
      rw [Mailbox.offer_disconnected_iff, hconnected, Bool.not_eq_false'] at hd
      exact hgone hd
    rw [if_neg hgone, if_neg hstays]
    exact h.updateMailbox number gone
      (fun _ _ => (Mailbox.connected_offer _ m).trans hconnected) (fun _ _ => rfl) (h.made number)

/-- **A message goes to the latest subscriber of its kind**, which is called once, and what that one
changes comes on top of the changes before. -/
theorem dispatch (h : g.Reflects changes gone) (m : Message) :
    let answer := reactionOf gone (occupied changes) g.memory m (latest m.kind changes)
    (Receiver.dispatch g m).2 =
        ([Effect.handing m (latest m.kind changes)], (latest m.kind changes).isSome) ∧
      (Receiver.dispatch g m).1.Reflects (answer.1.reverse ++ changes) gone ∧
      (Receiver.dispatch g m).1.memory = answer.2 := by
  have hsub := h.subscriber m.kind
  unfold Receiver.dispatch Registry.dispatch
  rw [hsub]
  rcases hl : latest m.kind changes with _ | (handler | ⟨kind, handler⟩ | number)
  · exact ⟨rfl, h, rfl⟩
  · exact ⟨rfl, h.call handler (.message m)⟩
  · dsimp only
    rw [if_pos (latest_typed hl).symm]
    exact ⟨rfl, h.call handler (.message m)⟩
  · have hreverse : (if gone number then [.unsubscribe m.kind] else [] : List (Change H)).reverse =
        if gone number then [.unsubscribe m.kind] else [] := by
      split <;> rfl
    refine ⟨rfl, ?_, memory_post g number m⟩
    show (g.post number m).Reflects
      ((if gone number then _ else _ : List (Change H)).reverse ++ changes) gone
    rw [hreverse]
    exact h.post hl

/-- **The latest handler for chunks looks at a chunk**, and what it changes comes on top. -/
theorem lookAt (h : g.Reflects changes gone) (chunk : Chunk) :
    let answer := answerOf (occupied changes) g.memory (.chunk chunk) (latestLooker changes)
    (g.lookAt chunk).2 = latestLooker changes ∧
      (g.lookAt chunk).1.Reflects (answer.1.reverse ++ changes) gone ∧
      (g.lookAt chunk).1.memory = answer.2 := by
  unfold Registry.lookAt
  rw [h.chunkHandler]
  cases latestLooker changes with
  | none => exact ⟨rfl, h, rfl⟩
  | some handler => exact ⟨rfl, h.call handler (.chunk chunk)⟩

end Reflects

end Registry

end Log
end FlightLink
