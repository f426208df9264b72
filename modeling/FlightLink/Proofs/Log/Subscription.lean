/-
# A channel subscription loses what finds it full, and ends with its receiver

A kind is subscribed to through a bounded channel. What a run of the registry does to this channel
is a list of calls (`Registry.calls`), and any channel that does what is documented of it stays in
the state of the registry's own mailbox under these calls (`Registry.Backed.step`). So the messages
that were received and those that wait are the ones that found room, in order: a step adds to both
sides the same (`Registry.Backed.account`), and the run has the sums.

A subscription is ended by kind, not by subscriber. It ends only itself all the same, since the end
comes from a message that was sent to its channel, and a channel that is not the subscriber is sent
none (`Registry.MadeFor.posted_iff`).

Key definitions: `Registry.calls`, `Registry.admitted`, `Registry.Backed`.
Key theorems: `Registry.met`, `Registry.Backed.step`, `Registry.Backed.account`,
`Registry.post_gone`, `Registry.channel_subscription`.
-/
import FlightLink.Log.Listener
import FlightLink.Proofs.Channel
import FlightLink.Proofs.Log.Stepping

namespace FlightLink
namespace Log
namespace Registry

variable {H : Type} [Reactive H]

/-! ### What a run does to a mailbox -/

/-- What a step does to the channel behind a mailbox. A receiver that is gone neither receives nor
goes away again. -/
def Step.calls (g : Registry H) (number : Nat) : Step H → List (Channel.Call Message)
  | dispatch m =>
    match g.subscriber m.kind with
    | some (.mailbox n) => if n = number then [.send m] else []
    | _ => []
  | receive n => if n = number ∧ g.hasReceiver number then [.receive] else []
  | closeMailbox n => if n = number ∧ g.hasReceiver number then [.drop] else []
  | _ => []

/-- The message of this kind that a step dispatches while fewer than so many wait in the mailbox. -/
def Step.admitted (g : Registry H) (kind : Kind) (number capacity : Nat) : Step H → List Message
  | dispatch m => if m.kind = kind ∧ (g.waiting number).length < capacity then [m] else []
  | _ => []

theorem Step.calls_dispatch {g : Registry H} {number : Nat} {m : Message}
    (h : g.subscriber m.kind = some (.mailbox number)) :
    (dispatch m).calls g number = [.send m] := by
  simp only [calls, h, if_true]

theorem Step.calls_dispatch_of_ne {g : Registry H} {number : Nat} {m : Message}
    (h : g.subscriber m.kind ≠ some (.mailbox number)) : (dispatch m).calls g number = [] := by
  rcases hs : g.subscriber m.kind with _ | (handler | ⟨kind, handler⟩ | n)
  · simp only [calls, hs]
  · simp only [calls, hs]
  · simp only [calls, hs]
  · have hn : n ≠ number := by
      rintro rfl
      exact h hs
    simp only [calls, hs, if_neg hn]

section Frame

variable {g : Registry H} {number : Nat} {box : Mailbox Message}

theorem waiting_of_getElem? (hbox : g.mailboxes[number]? = some box) :
    g.waiting number = box.waiting := by
  unfold waiting
  rw [hbox]

theorem getElem?_updateMailbox_self (hbox : g.mailboxes[number]? = some box)
    (f : Mailbox Message → Mailbox Message) :
    (g.updateMailbox number f).mailboxes[number]? = some (f box) := by
  show (g.mailboxes.modify number f)[number]? = _
  rw [List.getElem?_modify_eq, hbox]
  rfl

theorem getElem?_updateMailbox_of_ne {n : Nat} (hn : n ≠ number)
    (f : Mailbox Message → Mailbox Message) :
    (g.updateMailbox n f).mailboxes[number]? = g.mailboxes[number]? :=
  List.getElem?_modify_ne f g.mailboxes hn

/-- A change leaves the mailboxes that are there alone. -/
theorem getElem?_apply (hbox : g.mailboxes[number]? = some box) (c : Change H) :
    (g.apply c).mailboxes[number]? = some box := by
  cases c with
  | openMailbox kind capacity =>
    show (g.mailboxes ++ [Mailbox.bounded capacity])[number]? = some box
    rw [List.getElem?_append_left (List.getElem?_eq_some_iff.mp hbox).1]
    exact hbox
  | _ => exact hbox

theorem getElem?_foldl_apply (changes : List (Change H)) {g : Registry H}
    (hbox : g.mailboxes[number]? = some box) :
    (changes.foldl apply g).mailboxes[number]? = some box := by
  induction changes generalizing g with
  | nil => exact hbox
  | cons c changes ih => exact ih (getElem?_apply hbox c)

/-- So does a handler that is called. -/
theorem getElem?_call (hbox : g.mailboxes[number]? = some box) (h : H) (cue : Cue) :
    (g.call h cue).mailboxes[number]? = some box := by
  unfold call
  exact getElem?_foldl_apply _ hbox

theorem getElem?_lookAt (hbox : g.mailboxes[number]? = some box) (chunk : Chunk) :
    (g.lookAt chunk).1.mailboxes[number]? = some box := by
  unfold lookAt
  split
  · exact hbox
  · exact getElem?_call hbox _ _

/-- A mailbox is offered what is posted to it. -/
theorem getElem?_post_self (hbox : g.mailboxes[number]? = some box) (m : Message) :
    (g.post number m).mailboxes[number]? = some (box.offer m).1 := by
  rw [post_of_getElem? m hbox]
  split
  · rename_i hd
    rw [Mailbox.offer_of_gone (Mailbox.offer_disconnected_iff.mp hd)]
    exact hbox
  · exact getElem?_updateMailbox_self hbox _

theorem getElem?_post_of_ne {n : Nat} (hn : n ≠ number) (m : Message) :
    (g.post n m).mailboxes[number]? = g.mailboxes[number]? := by
  cases hother : g.mailboxes[n]? with
  | none =>
    unfold post
    rw [hother]
  | some other =>
    rw [post_of_getElem? m hother]
    split
    · rfl
    · exact getElem?_updateMailbox_of_ne hn _

/-- **A message that finds the receiver gone ends the subscription.** -/
theorem post_gone (hbox : g.mailboxes[number]? = some box) (hc : box.connected = false)
    (m : Message) : g.post number m = g.clear m.kind := by
  rw [post_of_getElem? m hbox, if_pos (Mailbox.offer_disconnected_iff.mpr hc)]

/-- A message that finds the receiver ends nothing, whether there is room or not. -/
theorem subscriber_post (hbox : g.mailboxes[number]? = some box) (hc : box.connected = true)
    (m : Message) : (g.post number m).subscriber = g.subscriber := by
  have hstays : (box.offer m).2 ≠ .disconnected := fun hd =>
    nomatch hc.symm.trans (Mailbox.offer_disconnected_iff.mp hd)
  rw [post_of_getElem? m hbox, if_neg hstays]
  rfl

/-- A message is offered to the mailbox that has its kind. -/
theorem getElem?_dispatch (hbox : g.mailboxes[number]? = some box) {m : Message}
    (h : g.subscriber m.kind = some (.mailbox number)) :
    (g.dispatch m).1.mailboxes[number]? = some (box.offer m).1 := by
  unfold dispatch
  rw [h]
  exact getElem?_post_self hbox m

/-- All other mailboxes stay as they are. -/
theorem getElem?_dispatch_of_ne (hbox : g.mailboxes[number]? = some box) {m : Message}
    (h : g.subscriber m.kind ≠ some (.mailbox number)) :
    (g.dispatch m).1.mailboxes[number]? = some box := by
  unfold dispatch
  rcases hs : g.subscriber m.kind with _ | (handler | ⟨kind, handler⟩ | n)
  · exact hbox
  · exact getElem?_call hbox handler _
  · dsimp only
    split
    · exact getElem?_call hbox handler _
    · exact hbox
  · have hn : n ≠ number := by
      rintro rfl
      exact h hs
    exact (getElem?_post_of_ne hn m).trans hbox

end Frame

/-- What a run does to the channel behind a mailbox. -/
def calls (number : Nat) : Registry H → List (Step H) → List (Channel.Call Message)
  | _, [] => []
  | g, s :: steps => s.calls g number ++ calls number (g.step s) steps

/-- The messages of this kind that a run dispatches while fewer than so many wait in the mailbox. -/
def admitted (kind : Kind) (number capacity : Nat) : Registry H → List (Step H) → List Message
  | _, [] => []
  | g, s :: steps =>
    s.admitted g kind number capacity ++ admitted kind number capacity (g.step s) steps

/-! ### What a step does to a mailbox -/

/-- A step, the calls that it makes, and the mailbox after it. -/
inductive Met (g : Registry H) (number : Nat) (box : Mailbox Message) :
    Step H → List (Channel.Call Message) → Mailbox Message → Prop
  | sent (m : Message) (h : g.subscriber m.kind = some (.mailbox number)) :
    g.Met number box (.dispatch m) [.send m] (box.offer m).1
  | received (hc : box.connected = true) :
    g.Met number box (.receive number) [.receive] box.receive.2
  | dropped (hc : box.connected = true) :
    g.Met number box (.closeMailbox number) [.drop] box.disconnect
  | receivedGone (hc : box.connected = false) :
    g.Met number box (.receive number) [] box.receive.2
  | droppedGone (hc : box.connected = false) :
    g.Met number box (.closeMailbox number) [] box.disconnect
  | spared {s : Step H}
    (h : ∀ m, s = .dispatch m → g.subscriber m.kind ≠ some (.mailbox number)) :
    g.Met number box s [] box

/-- What its owner does to a mailbox is a call while the receiver is there, and none otherwise. -/
private theorem met_owner {g : Registry H} {number n : Nat} {box : Mailbox Message}
    (hbox : g.mailboxes[number]? = some box) {s : Step H} {call : Channel.Call Message}
    {f : Mailbox Message → Mailbox Message} (hs : ∀ m, s ≠ .dispatch m)
    (hstep : g.step s = g.updateMailbox n f)
    (hcalls : s.calls g number = if n = number ∧ g.hasReceiver number then [call] else [])
    (hthere : n = number → box.connected = true → g.Met number box s [call] (f box))
    (hgone : n = number → box.connected = false → g.Met number box s [] (f box)) :
    ∃ box', (g.step s).mailboxes[number]? = some box' ∧
      g.Met number box s (s.calls g number) box' := by
  rw [hstep, hcalls, hasReceiver_of_getElem? hbox]
  by_cases hn : n = number
  · refine ⟨f box, hn ▸ getElem?_updateMailbox_self (hn ▸ hbox) f, ?_⟩
    by_cases hc : box.connected = true
    · rw [if_pos ⟨hn, hc⟩]
      exact hthere hn hc
    · rw [if_neg fun hb => hc hb.2]
      exact hgone hn (Bool.eq_false_iff.mpr hc)
  · rw [if_neg fun hb => hn hb.1]
    refine ⟨box, (getElem?_updateMailbox_of_ne hn f).trans hbox, .spared fun m hm => ?_⟩
    exact absurd hm (hs m)

/-- **A mailbox is sent a message of its kind, or its owner receives or closes it**, or the step
leaves it alone. -/
theorem met {g : Registry H} {number : Nat} {box : Mailbox Message}
    (hbox : g.mailboxes[number]? = some box) (s : Step H) :
    ∃ box', (g.step s).mailboxes[number]? = some box' ∧
      g.Met number box s (s.calls g number) box' := by
  cases s with
  | change c => exact ⟨box, getElem?_apply hbox c, .spared nofun⟩
  | lookAt chunk => exact ⟨box, getElem?_lookAt hbox chunk, .spared nofun⟩
  | dispatch m =>
    by_cases hs : g.subscriber m.kind = some (.mailbox number)
    · rw [Step.calls_dispatch hs]
      exact ⟨_, getElem?_dispatch hbox hs, .sent m hs⟩
    · rw [Step.calls_dispatch_of_ne hs]
      refine ⟨box, getElem?_dispatch_of_ne hbox hs, .spared ?_⟩
      rintro _ ⟨⟩
      exact hs
  | receive n =>
    refine met_owner hbox (n := n) (by simp) rfl rfl ?_ ?_
    · rintro rfl hc
      exact .received hc
    · rintro rfl hc
      exact .receivedGone hc
  | closeMailbox n =>
    refine met_owner hbox (n := n) (by simp) rfl rfl ?_ ?_
    · rintro rfl hc
      exact .dropped hc
    · rintro rfl hc
      exact .droppedGone hc

/-! ### The channel behind a mailbox -/

section Backed

variable {C : Type} {ch : Channel C Message} {Holds : Nat → C → List Message → Prop}
  {Gone : C → Prop}

/-- The channel is in the state of the mailbox. -/
def Backed (Holds : Nat → C → List Message → Prop) (Gone : C → Prop) (g : Registry H)
    (number capacity : Nat) (x : C) : Prop :=
  ∃ box, g.mailboxes[number]? = some box ∧ Channel.Mirrors Holds Gone capacity x box

variable {g : Registry H} {kind : Kind} {number capacity : Nat} {x : C} (hch : ch.IsFifo Holds Gone)
include hch

namespace Backed

/-- **A channel stays in the state of the mailbox** whatever is done. -/
theorem step (h : g.Backed Holds Gone number capacity x) (s : Step H) :
    (g.step s).Backed Holds Gone number capacity (ch.after x (s.calls g number)) := by
  obtain ⟨box, hbox, hx⟩ := h
  obtain ⟨box', hbox', hmet⟩ := met hbox s
  refine ⟨box', hbox', ?_⟩
  generalize s.calls g number = calls at hmet ⊢
  cases hmet with
  | sent m _ => exact (hch.offer hx m).2
  | received hc => exact (hch.receive_connected hx hc).2
  | dropped hc => exact hch.disconnect_connected hx hc
  | receivedGone hc => exact hx.receive_gone hc
  | droppedGone hc => exact hx.disconnect_gone hc
  | spared _ => exact hx

theorem run : ∀ (steps : List (Step H)) {g : Registry H} {x : C},
    g.Backed Holds Gone number capacity x →
      (g.run steps).Backed Holds Gone number capacity (ch.after x (g.calls number steps))
  | [], _, _, h => h
  | s :: steps, g, x, h => by
    show ((g.step s).run steps).Backed Holds Gone number capacity
      (ch.after x (s.calls g number ++ (g.step s).calls number steps))
    rw [ch.after_append]
    exact run steps (h.step hch s)

/-- **A step adds the same to what is received and waits as to what found room**, as long as the
mailbox has its kind and its receiver. -/
theorem account (h : g.Backed Holds Gone number capacity x) (hmade : g.MadeFor kind number)
    (hin : g.subscriber kind = some (.mailbox number)) {s : Step H}
    (hthere : (g.step s).hasReceiver number = true) :
    ch.received x (s.calls g number) ++ (g.step s).waiting number =
      g.waiting number ++ s.admitted g kind number capacity := by
  obtain ⟨box, hbox, hx⟩ := h
  obtain ⟨box', hbox', hmet⟩ := met hbox s
  rw [hasReceiver_of_getElem? hbox'] at hthere
  rw [waiting_of_getElem? hbox', waiting_of_getElem? hbox]
  generalize s.calls g number = calls at hmet ⊢
  cases hmet with
  | sent m hs =>
    have hc : box.connected = true := (Mailbox.connected_offer box m).symm.trans hthere
    show (box.offer m).1.waiting =
      box.waiting ++ if m.kind = kind ∧ (g.waiting number).length < capacity then [m] else []
    rw [hx.waiting_offer hc, waiting_of_getElem? hbox]
    simp only [hmade.only hs, true_and]
  | received hc =>
    show ch.taken x .receive ++ [] ++ box.receive.2.waiting = box.waiting ++ []
    rw [List.append_nil, List.append_nil]
    exact (hch.receive_connected hx hc).1
  | dropped | droppedGone => cases hthere
  | receivedGone hc => exact nomatch hc.symm.trans hthere
  | spared hs =>
    have hnone : s.admitted g kind number capacity = [] := by
      cases s with
      | dispatch m =>
        refine if_neg fun hm => hs m rfl ?_
        rw [hm.1, hin]
      | _ => rfl
    rw [hnone, List.append_nil]
    rfl

/-- **So does a run.** -/
theorem account_run : ∀ (steps : List (Step H)) {g : Registry H} {x : C},
    g.Backed Holds Gone number capacity x → g.MadeFor kind number →
      (g.run steps).subscriber kind = some (.mailbox number) →
      (g.run steps).hasReceiver number = true →
      ch.received x (g.calls number steps) ++ (g.run steps).waiting number =
        g.waiting number ++ g.admitted kind number capacity steps
  | [], _, _, _, _, _, _ => (List.append_nil _).symm
  | s :: steps, g, x, h, hmade, hin, hthere => by
    have hmade' : (g.step s).MadeFor kind number := hmade.run [s]
    have hthere' := ((hmade'.hasReceiver_run steps).mp hthere).1
    have hin' : (g.run (s :: steps)).subscriber kind = some (.mailbox number) := hin
    have hfirst := h.account hch hmade (hmade.inPlace_of_run hin') hthere'
    have hlater := account_run steps (h.step hch s) hmade' hin hthere
    show ch.received x (s.calls g number ++ (g.step s).calls number steps) ++
        ((g.step s).run steps).waiting number =
      g.waiting number ++ (s.admitted g kind number capacity ++
        (g.step s).admitted kind number capacity steps)
    rw [ch.received_append, List.append_assoc, hlater, ← List.append_assoc, hfirst,
      List.append_assoc]

end Backed

end Backed

/-- A message that reaches a mailbox counts as delivered. -/
theorem dispatch_posted {g : Registry H} {number : Nat} {m : Message}
    (hin : g.subscriber m.kind = some (.mailbox number)) :
    Receiver.dispatch g m = (g.post number m, [.posted number m], true) := by
  have hdispatch : g.dispatch m = (g.post number m, .posted number) := by
    unfold dispatch
    rw [hin]
  unfold Receiver.dispatch
  rw [hdispatch]
  rfl

/-- **A channel subscription is a lossy bounded queue that cleans up after itself.** Let the channel
behind it do what is documented of bounded channels, and let anything be done to the registry before
and after the kind is subscribed to. The channel answers as the registry's mailbox does, and no more
than its capacity waits. Until its receiver goes away it holds what waits in the mailbox; while the
subscription is in place, what was received and what waits are the messages of the kind that found
room, in order, and the next one ends nothing, also if it is lost. After that, a message of the kind
that still reaches the subscription counts as delivered and ends it, and nothing else. Only messages
of its kind reach it, and only while it is in place; once it is not, it never is again, and its
receiver may go away without any bearing on who gets what. -/
theorem channel_subscription {C : Type} {ch : Channel C Message}
    {Holds : Nat → C → List Message → Prop} {Gone : C → Prop} (hch : ch.IsFifo Holds Gone)
    (before after : List (Step H)) (kind : Kind) (capacity : Nat) :
    let made := ((empty : Registry H).run before).openMailbox kind capacity
    let number := made.2
    let g := made.1.run after
    let calls := made.1.calls number after
    let x := ch.after (ch.bounded capacity) calls
    ((g.waiting number).length ≤ capacity ∧ ∃ box, g.mailboxes[number]? = some box ∧
      ∀ m, (ch.trySend x m).2 = (box.offer m).2) ∧
    (Step.closeMailbox number ∉ after → Holds capacity x (g.waiting number) ∧
      (g.subscriber kind = some (.mailbox number) →
        ch.received (ch.bounded capacity) calls ++ g.waiting number =
            made.1.admitted kind number capacity after ∧
          ∀ m, m.kind = kind → (Receiver.dispatch g m).1.subscriber = g.subscriber)) ∧
    (Step.closeMailbox number ∈ after → g.subscriber kind = some (.mailbox number) →
      ∀ m, m.kind = kind → (ch.trySend x m).2 = .disconnected ∧
        Receiver.dispatch g m = (g.clear kind, [.posted number m], true)) ∧
    (∀ m, (Receiver.dispatch g m).2.1 = [.posted number m] ↔
      m.kind = kind ∧ g.subscriber kind = some (.mailbox number)) ∧
    (g.subscriber kind ≠ some (.mailbox number) → ∀ later,
      (g.run later).subscriber kind ≠ some (.mailbox number) ∧
        ((g.closeMailbox number).run later).subscriber = (g.run later).subscriber) := by
  intro made number g calls x
  obtain ⟨changes, gone, hbefore, -⟩ := reflects_empty.run before
  have hmade : made.1.MadeFor kind number := .openMailbox hbefore kind capacity
  have hnew : made.1.mailboxes[number]? = some (.bounded capacity) := List.getElem?_concat_length
  have hfirst : made.1.Backed Holds Gone number capacity (ch.bounded capacity) :=
    ⟨_, hnew, hch.new capacity⟩
  obtain ⟨box, hbox, hx⟩ := hfirst.run hch after
  have hthere : box.connected = true ↔ Step.closeMailbox number ∉ after := by
    have h := hmade.hasReceiver_run after
    rw [hasReceiver_of_getElem? hbox, hasReceiver_of_getElem? hnew] at h
    exact h.trans (and_iff_right rfl)
  have hwaiting : g.waiting number = box.waiting := waiting_of_getElem? hbox
  refine ⟨⟨?_, box, hbox, fun m => (hch.offer hx m).1⟩, fun hopen => ?_, fun hclosed hin m hm => ?_,
    (hmade.run after).posted_iff, (hmade.run after).out_of_place⟩
  · rw [hwaiting]
    exact hx.bound
  · -- The receiver is there.
    have hc := hthere.mpr hopen
    refine ⟨hwaiting ▸ hx.holds hc, fun hin => ?_⟩
    have haccount := hfirst.account_run hch after hmade hin
      ((hasReceiver_of_getElem? hbox).trans hc)
    rw [waiting_of_getElem? hnew] at haccount
    refine ⟨haccount, fun m hm => ?_⟩
    subst hm
    rw [dispatch_posted hin]
    exact subscriber_post hbox hc m
  · -- The receiver is gone.
    have hc : box.connected = false := by
      rw [← Bool.not_eq_true, hthere]
      exact not_not_intro hclosed
    subst hm
    refine ⟨(hch.gone (hx.gone hc) m).1, ?_⟩
    rw [dispatch_posted hin, post_gone hbox hc m]

/-- A channel with room for one loses the second of two messages. Its receiver takes the first and
goes away, and the third message ends the subscription, but not the one of another kind. -/
theorem channel_subscription_of_one :
    let sync : Step Listener := .change (.subscribe .sync (.recorder 7))
    let steps : List (Step Listener) := [.dispatch (.dropout 1), .dispatch (.dropout 2), .receive 0]
    let g := (((empty : Registry Listener).run [sync]).openMailbox .dropout 1).1
    let calls := g.calls 0 steps
    calls = [.send (.dropout 1), .send (.dropout 2), .receive] ∧
      Mailbox.channel.received (Mailbox.channel.bounded 1) calls ++ (g.run steps).waiting 0 =
        [.dropout 1] ∧
      (let closed := g.run (steps ++ [.closeMailbox 0])
      Receiver.dispatch closed (.dropout 3) =
          (closed.clear .dropout, [.posted 0 (.dropout 3)], true) ∧
        (closed.clear .dropout).subscribedKinds = [.sync]) := by
  intro sync steps g calls
  have hopen := (channel_subscription Mailbox.isFifo [sync] steps .dropout 1).2.1 (by decide)
  have hclosed := (channel_subscription Mailbox.isFifo [sync] (steps ++ [.closeMailbox 0])
    .dropout 1).2.2.1 (by decide) rfl (.dropout 3) rfl
  exact ⟨by decide, (hopen.2 rfl).1.trans (by decide), hclosed.2, by decide⟩

end Registry
end Log
end FlightLink
