import WebSocketPatterns.PubSub.Termination

/-!
# Isolation of subscribers

A subscriber's inbox is what a bus without any other subscriber would give it:
its own bounded queue, its own subscription and its own consumer. Every action
of the bus leaves an inbox alone or changes it by an operation that is computed
from the inbox. Two runs with the same operations on a subscriber therefore
agree on it, whatever they do to all others.
-/

namespace WebSocketPatterns.PubSub

open Transition

variable {P : Type*}

/-- The message without its timestamp. -/
def Message.untimed (msg : Message P) : Message P := { msg with timestamp := 0 }

/-- What concerns one subscriber: its own calls, those on its channel, its consumer's steps. -/
inductive SubscriberOp (P : Type*)
  | subscribe (channel subscriberId : String) (maxQueueSize : Int)
  | publish (payload : P) (publisherId : String) (skipLagging : Bool)
  | unsubscribe
  | closeChannel
  | consume
deriving DecidableEq

/-- One subscriber alone, timestamps left out. -/
structure Inbox (P : Type*) where
  channel : String
  maxQueueSize : Int
  live : Bool
  items : List (Option (Message P))
  yielded : List (Message P)
  ended : Bool

namespace Inbox

/-- The bounded queue is full. -/
def full (v : Inbox P) : Prop := 0 < v.maxQueueSize ∧ v.maxQueueSize ≤ v.items.length

/-- The queue is as long as lag skipping allows. -/
def lagging (v : Inbox P) : Prop := (v.maxQueueSize * 4).tdiv 5 ≤ v.items.length

instance (v : Inbox P) : Decidable v.full := inferInstanceAs (Decidable (_ ∧ _))

instance (v : Inbox P) : Decidable v.lagging := inferInstanceAs (Decidable (_ ≤ _))

/-- Put an item in the queue unless it is full. -/
def offer (v : Inbox P) (item : Option (Message P)) : Inbox P :=
  if v.full then v else { v with items := v.items ++ [item] }

/-- The subscription ends and the sentinel is offered. -/
def stop (v : Inbox P) : Inbox P := { v.offer none with live := false }

/-- A message is offered to a live subscription that is not skipped. -/
def receive (v : Inbox P) (payload : P) (publisherId : String) (skipLagging : Bool) : Inbox P :=
  if v.live = true ∧ ¬ (skipLagging = true ∧ v.lagging)
  then v.offer (some ⟨v.channel, payload, 0, publisherId⟩) else v

/-- The consumer takes the oldest item. -/
def take (v : Inbox P) : Inbox P :=
  match v.items with
  | [] => v
  | none :: rest => { v with items := rest, ended := true }
  | some msg :: rest => { v with items := rest, yielded := v.yielded ++ [msg] }

/-- One operation on a subscriber; there is no inbox before its `subscribe`. -/
def apply (v : Option (Inbox P)) : SubscriberOp P → Option (Inbox P)
  | .subscribe channel _ maxQueueSize => some ⟨channel, maxQueueSize, true, [], [], false⟩
  | .publish payload publisherId skipLagging =>
      v.map fun v => v.receive payload publisherId skipLagging
  | .unsubscribe => v.map stop
  | .closeChannel => v.map fun v => if v.live then v.stop else v
  | .consume => v.map take

end Inbox

namespace BusState

/-- The operation an action is for the subscriber with the given position, if it concerns it. -/
def concerning (σ : BusState P) (r : Nat) : BusAction P → Option (SubscriberOp P)
  | .subscribe channel subscriberId maxQueueSize =>
      if r = σ.subscribers.length then some (.subscribe channel subscriberId maxQueueSize)
      else none
  | .publish channel payload publisherId skipLagging _ =>
      if (σ.subscribers[r]?).map Subscriber.channel = some channel
      then some (.publish payload publisherId skipLagging) else none
  | .unsubscribe i => if i = r then some .unsubscribe else none
  | .closeChannel channel =>
      if (σ.subscribers[r]?).map Subscriber.channel = some channel then some .closeChannel
      else none
  | .consume i => if i = r then some .consume else none

/-- The operations of the run that concern a subscriber, in order. -/
def operationsOn (acts : List (BusAction P)) (r : Nat) : List (SubscriberOp P) :=
  (trace step start acts).filterMap fun visit => visit.1.concerning r visit.2

/-- The items of a subscriber's queue without timestamps. -/
def untimedItems (σ : BusState P) (r : Nat) : List (Option (Message P)) :=
  (σ.bus.queues r).items.map (Option.map Message.untimed)

/-- What a subscriber's consumer has yielded, without timestamps. -/
def untimedYielded (σ : BusState P) (r : Nat) : List (Message P) :=
  (σ.yielded r).map Message.untimed

/-- The part of the state that belongs to one subscriber. -/
def inboxOf (σ : BusState P) (sub : Subscriber) : Inbox P :=
  ⟨sub.channel, sub.maxQueueSize, (σ.stopped sub.queue).isNone, σ.untimedItems sub.queue,
    σ.untimedYielded sub.queue, (σ.consumers sub.queue).ended⟩

/-- The inbox of the subscriber with the given position, once it has subscribed. -/
def inbox (σ : BusState P) (r : Nat) : Option (Inbox P) := (σ.subscribers[r]?).map σ.inboxOf

theorem inboxOf_congr {σ τ : BusState P} {sub : Subscriber}
    (hitems : τ.untimedItems sub.queue = σ.untimedItems sub.queue)
    (hconsumer : τ.consumers sub.queue = σ.consumers sub.queue)
    (hstopped : τ.stopped sub.queue = σ.stopped sub.queue) : τ.inboxOf sub = σ.inboxOf sub := by
  simp only [inboxOf, untimedYielded, yielded, hitems, hconsumer, hstopped]

section Steps

variable {σ τ : BusState P} (inv : σ.Inv) {a : BusAction P} (h : σ.step a = some τ)
  {sub : Subscriber} (hsub : sub ∈ σ.subscribers)
  (hmax : (σ.bus.queues sub.queue).maxsize = sub.maxQueueSize)

include hmax in
/-- The inbox is full when the queue object is. -/
theorem inboxOf_full_iff : (σ.inboxOf sub).full ↔ (σ.bus.queues sub.queue).full := by
  simp [Inbox.full, inboxOf, untimedItems, AsyncQueue.full, AsyncQueue.qsize, hmax]

theorem inboxOf_lagging_iff (σ : BusState P) (sub : Subscriber) :
    (σ.inboxOf sub).lagging ↔ σ.bus.isLagging sub = true := by
  simp [Inbox.lagging, inboxOf, untimedItems, InMemoryMessageBus.isLagging_iff, AsyncQueue.qsize]

include inv h hmax in
/-- A subscriber the action unsubscribes gets the sentinel if there is room. -/
theorem Inv.inboxOf_stop (hr : sub.queue ∈ σ.stops a) :
    τ.inboxOf sub = (σ.inboxOf sub).stop := by
  obtain ⟨hq, hc⟩ := inv.step_of_mem_stops h hr
  have hstopped : (τ.stopped sub.queue).isNone = false := by
    rw [inv.step_stopped h, Option.isNone_eq_false_iff, Option.isSome_iff_ne_none, ne_eq,
      markStopped_eq_none_iff]
    exact fun hnone => hnone.2 hr
  have hfull := inboxOf_full_iff hmax
  rw [Inbox.stop, Inbox.offer]
  by_cases hf : (σ.bus.queues sub.queue).full
  · rw [if_pos (hfull.mpr hf)]
    simp [inboxOf, untimedItems, untimedYielded, yielded, hq, hc, hstopped,
      InMemoryMessageBus.offer_of_full none hf]
  · rw [if_neg (hfull.not.mpr hf)]
    simp [inboxOf, untimedItems, untimedYielded, yielded, hq, hc, hstopped,
      InMemoryMessageBus.offer_items none hf]

include inv h in
theorem Inv.stopped_of_not_mem_stops {r : Nat} (hr : r ∉ σ.stops a) :
    τ.stopped r = σ.stopped r := by
  rw [inv.step_stopped h]
  simp [markStopped, hr]

include inv hsub hmax in
/-- A publish is received as the inbox alone says. -/
theorem Inv.inboxOf_publish (payload : P) (publisherId : String) (skipLagging : Bool) (now : ℚ) :
    inboxOf { σ with
        bus := (σ.bus.publish sub.channel payload publisherId skipLagging now).1 } sub =
      (σ.inboxOf sub).receive payload publisherId skipLagging := by
  have hitems := inv.publish_items_of_mem sub.channel payload publisherId skipLagging now hsub
  have hfull := inboxOf_full_iff hmax
  have hlagging := σ.inboxOf_lagging_iff sub
  simp only [true_and] at hitems
  simp only [Inbox.receive, Inbox.offer, hlagging, hfull]
  by_cases htake : σ.stopped sub.queue = none ∧
      ¬ (skipLagging = true ∧ σ.bus.isLagging sub = true) ∧ ¬ (σ.bus.queues sub.queue).full
  · obtain ⟨hlive, hskip, hroom⟩ := htake
    rw [if_pos ⟨hlive, hskip, hroom⟩] at hitems
    rw [if_pos ⟨by simp [inboxOf, hlive], hskip⟩, if_neg hroom]
    simp [inboxOf, untimedItems, untimedYielded, yielded, hitems, Message.untimed]
  · rw [if_neg htake] at hitems
    have hsame : inboxOf { σ with
        bus := (σ.bus.publish sub.channel payload publisherId skipLagging now).1 } sub =
          σ.inboxOf sub :=
      inboxOf_congr (by simp [untimedItems, hitems]) rfl rfl
    rw [hsame]
    split
    · rename_i hgo
      have hlive : σ.stopped sub.queue = none := by simpa [inboxOf] using hgo.1
      have hf : (σ.bus.queues sub.queue).full := by
        by_contra hroom
        exact htake ⟨hlive, hgo.2, hroom⟩
      rw [if_pos hf]
    · rfl

/-- A consumer's step takes the oldest item of its own inbox. -/
theorem inboxOf_consume {item : Option (Message P)} {q : AsyncQueue (Option (Message P))}
    (hget : (σ.bus.queues sub.queue).getNowait = some (item, q)) :
    inboxOf { σ with
        bus := { σ.bus with queues := Function.update σ.bus.queues sub.queue q }
        consumers := Function.update σ.consumers sub.queue
          ((σ.consumers sub.queue).resume item) } sub =
      (σ.inboxOf sub).take := by
  obtain ⟨hitems, _⟩ := (AsyncQueue.getNowait_eq_some_iff _ _ _).mp hget
  cases item with
  | none =>
      simp [inboxOf, untimedItems, untimedYielded, yielded, Consumer.resume, Inbox.take, hitems]
  | some msg =>
      simp [inboxOf, untimedItems, untimedYielded, yielded, Consumer.resume, Inbox.take, hitems]

include inv h hsub hmax in
/-- An action leaves the inbox of an existing subscriber alone, or changes it by the operation
it is for that subscriber. -/
theorem Inv.step_inboxOf :
    some (τ.inboxOf sub) =
      (σ.concerning sub.queue a).elim (some (σ.inboxOf sub))
        (Inbox.apply (some (σ.inboxOf sub))) := by
  have hat := inv.getElem?_queue hsub
  have hlt := inv.queue_lt hsub
  cases a with
  | subscribe channel subscriberId maxQueueSize =>
      have hsame : τ.inboxOf sub = σ.inboxOf sub := by
        obtain rfl := Option.some.inj h
        have hne : sub.queue ≠ σ.bus.nextQueue := inv.counted ▸ hlt.ne
        refine inboxOf_congr ?_ rfl rfl
        rw [untimedItems, InMemoryMessageBus.subscribe_queues, if_neg hne, untimedItems]
      simp [concerning, hlt.ne, hsame]
  | publish channel payload publisherId skipLagging now =>
      by_cases hc : sub.channel = channel
      · obtain rfl := Option.some.inj h
        subst hc
        rw [inv.inboxOf_publish hsub hmax]
        simp [concerning, hat, Inbox.apply]
      · have hsame : τ.inboxOf sub = σ.inboxOf sub := by
          obtain rfl := Option.some.inj h
          have hitems :=
            inv.publish_items_of_mem channel payload publisherId skipLagging now hsub
          rw [if_neg (fun htake => hc htake.1), List.append_nil] at hitems
          exact inboxOf_congr (by simp [untimedItems, hitems]) rfl rfl
        simp [concerning, hat, hc, hsame]
  | unsubscribe i =>
      by_cases hi : i = sub.queue
      · rw [inv.inboxOf_stop h hmax (by simp [stops, hi])]
        simp [concerning, hi, Inbox.apply]
      · have hr : sub.queue ∉ σ.stops (.unsubscribe i) := by simpa [stops] using Ne.symm hi
        have hstopped := inv.stopped_of_not_mem_stops h hr
        have hsame : τ.inboxOf sub = σ.inboxOf sub := by
          obtain ⟨other, _, rfl, rfl⟩ := inv.step_unsubscribe h
          refine inboxOf_congr ?_ rfl hstopped
          simp [untimedItems, InMemoryMessageBus.unsubscribe_queues, Ne.symm hi]
        simp [concerning, hi, hsame]
  | closeChannel channel =>
      by_cases hmem : sub ∈ σ.bus.subs channel
      · obtain ⟨_, hc, hlive⟩ := (inv.mem_subs_iff channel sub).mp hmem
        have hinbox : (σ.inboxOf sub).live = true := by simp [inboxOf, hlive]
        rw [inv.inboxOf_stop h hmax (List.mem_map_of_mem hmem)]
        simp [concerning, hat, hc, Inbox.apply, hinbox]
      · have hr : sub.queue ∉ (σ.bus.subs channel).map Subscriber.queue := by
          intro hqueue
          obtain ⟨other, hother, he⟩ := List.mem_map.mp hqueue
          obtain ⟨hin, _, _⟩ := (inv.mem_subs_iff channel other).mp hother
          exact hmem (inv.eq_of_queue_eq hin hsub he ▸ hother)
        have hstopped := inv.stopped_of_not_mem_stops h hr
        have hsame : τ.inboxOf sub = σ.inboxOf sub := by
          obtain rfl := Option.some.inj h
          obtain ⟨_, _, _, _, hqueues⟩ := inv.closeChannel_spec channel
          refine inboxOf_congr ?_ rfl hstopped
          simp only [untimedItems, hqueues, if_neg hr]
        by_cases hc : sub.channel = channel
        · -- it is not listed under its own channel, so it was stopped before
          have hdead : (σ.inboxOf sub).live = false := by
            rw [inv.mem_subs_iff] at hmem
            cases hs : σ.stopped sub.queue with
            | none => exact absurd ⟨hsub, hc, hs⟩ hmem
            | some stop => simp [inboxOf, hs]
          simp [concerning, hat, hc, Inbox.apply, hdead, hsame]
        · simp [concerning, hat, hc, hsame]
  | consume i =>
      by_cases hi : i = sub.queue
      · obtain ⟨item, q, _, hget, rfl⟩ := step_consume h
        subst hi
        rw [inboxOf_consume hget]
        simp [concerning, Inbox.apply]
      · have hsame : τ.inboxOf sub = σ.inboxOf sub := by
          obtain ⟨item, q, _, _, rfl⟩ := step_consume h
          exact inboxOf_congr (by simp [untimedItems, Ne.symm hi]) (by simp [Ne.symm hi]) rfl
        simp [concerning, hi, hsame]

end Steps

/-- Nothing happens to a position before the subscription that takes it. -/
theorem concerning_elim_none {σ : BusState P} {r : Nat} {a : BusAction P}
    (hr : σ.subscribers.length ≤ r)
    (hne : ∀ channel subscriberId maxQueueSize,
      a = .subscribe channel subscriberId maxQueueSize → r ≠ σ.subscribers.length) :
    (σ.concerning r a).elim none (Inbox.apply none) = none := by
  have hnone : σ.subscribers[r]? = none := List.getElem?_eq_none hr
  cases a with
  | subscribe channel subscriberId maxQueueSize => simp [concerning, hne _ _ _ rfl]
  | publish channel payload publisherId skipLagging now => simp [concerning, hnone]
  | unsubscribe i =>
      rw [concerning]
      split <;> rfl
  | closeChannel channel => simp [concerning, hnone]
  | consume i =>
      rw [concerning]
      split <;> rfl

theorem inbox_eq_none_iff {σ : BusState P} {r : Nat} :
    σ.inbox r = none ↔ σ.subscribers.length ≤ r := by
  rw [inbox, Option.map_eq_none_iff, List.getElem?_eq_none_iff]

section Positions

variable {σ τ : BusState P} (inv : σ.Inv) {a : BusAction P} (h : σ.step a = some τ)
include inv

/-- A subscription creates an empty inbox at the next position. -/
theorem Inv.inbox_subscribe {channel subscriberId : String} {maxQueueSize : Int}
    (h : σ.step (.subscribe channel subscriberId maxQueueSize) = some τ) :
    τ.inbox σ.subscribers.length = some ⟨channel, maxQueueSize, true, [], [], false⟩ := by
  obtain rfl := Option.some.inj h
  obtain ⟨hs, hy, _⟩ := inv.known σ.subscribers.length le_rfl
  have hrun := (inv.running σ.subscribers.length hs).1
  have hyielded : (σ.consumers σ.subscribers.length).yielded = [] := hy
  simp [inbox, inboxOf, InMemoryMessageBus.subscribe, inv.counted, untimedItems, untimedYielded,
    yielded, hs, hyielded, hrun]

include h

/-- Every action acts on every inbox by the operation it is for it. -/
theorem Inv.step_inbox
    (hmax : ∀ sub ∈ σ.subscribers, (σ.bus.queues sub.queue).maxsize = sub.maxQueueSize)
    (r : Nat) :
    τ.inbox r = (σ.concerning r a).elim (σ.inbox r) (Inbox.apply (σ.inbox r)) := by
  rcases lt_or_ge r σ.subscribers.length with hlt | hge
  · obtain ⟨sub, hat⟩ : ∃ sub, σ.subscribers[r]? = some sub :=
      ⟨_, List.getElem?_eq_getElem hlt⟩
    obtain ⟨hsub, rfl⟩ := (inv.getElem?_iff r sub).mp hat
    have hat' : τ.subscribers[sub.queue]? = some sub := by
      rcases inv.step_subscribers h with ⟨_, hsame⟩ | ⟨_, _, _, _, hadded, _⟩
      · rw [hsame, hat]
      · rw [hadded, List.getElem?_append_left hlt, hat]
    have hstep := inv.step_inboxOf h hsub (hmax sub hsub)
    rwa [inbox, inbox, hat, hat', Option.map_some, Option.map_some]
  · rw [inbox_eq_none_iff.mpr hge]
    rcases inv.step_subscribers h with ⟨hne, hsame⟩ | ⟨_, _, _, rfl, hadded, _⟩
    · rw [concerning_elim_none hge fun _ _ _ he => absurd he (hne _ _ _), inbox_eq_none_iff, hsame]
      exact hge
    · rcases eq_or_lt_of_le hge with rfl | hgt
      · rw [inv.inbox_subscribe h]
        simp [concerning, Inbox.apply]
      · rw [concerning_elim_none hge fun _ _ _ _ => hgt.ne', inbox_eq_none_iff, hadded,
          List.length_append]
        exact hgt

end Positions

/-- In every state of a run an inbox is the result of the operations on its subscriber. -/
theorem inbox_of_run {acts : List (BusAction P)} {σ : BusState P} (run : Run step start acts σ)
    (r : Nat) : σ.inbox r = (operationsOn acts r).foldl Inbox.apply none := by
  have hstep : ∀ (pre : List (BusAction P)) ω a τ, Run step start pre ω → ω.step a = some τ →
      τ.inbox r = (ω.concerning r a).elim (ω.inbox r) (Inbox.apply (ω.inbox r)) := by
    intro pre ω a τ hrun h
    exact (inv_of_run hrun).step_inbox h (maxsize_of_run hrun) r
  exact run.view_eq hstep

/-- An inbox shows the queue and the consumer of its subscriber. -/
theorem Inv.eq_of_inbox_eq {σ₁ σ₂ : BusState P} (inv₁ : σ₁.Inv) (inv₂ : σ₂.Inv) {r₁ r₂ : Nat}
    (h : σ₁.inbox r₁ = σ₂.inbox r₂) :
    σ₁.untimedItems r₁ = σ₂.untimedItems r₂ ∧ σ₁.untimedYielded r₁ = σ₂.untimedYielded r₂ ∧
      (σ₁.consumers r₁).ended = (σ₂.consumers r₂).ended := by
  have hempty : ∀ {σ : BusState P} {r : Nat}, σ.Inv → σ.inbox r = none →
      σ.untimedItems r = [] ∧ σ.untimedYielded r = [] ∧ (σ.consumers r).ended = false := by
    intro σ r inv hnone
    obtain ⟨hs, hy, hi⟩ := inv.known r (inbox_eq_none_iff.mp hnone)
    exact ⟨by simp [untimedItems, hi], by simp [untimedYielded, hy], (inv.running r hs).1⟩
  have hshown : ∀ {σ : BusState P} {r : Nat} {v : Inbox P}, σ.Inv → σ.inbox r = some v →
      σ.untimedItems r = v.items ∧ σ.untimedYielded r = v.yielded ∧
        (σ.consumers r).ended = v.ended := by
    intro σ r v inv hsome
    obtain ⟨sub, hat, rfl⟩ := Option.map_eq_some_iff.mp hsome
    obtain ⟨_, rfl⟩ := (inv.getElem?_iff r sub).mp hat
    exact ⟨rfl, rfl, rfl⟩
  cases hv : σ₁.inbox r₁ with
  | none =>
      obtain ⟨hi₁, hy₁, he₁⟩ := hempty inv₁ hv
      obtain ⟨hi₂, hy₂, he₂⟩ := hempty inv₂ (h ▸ hv)
      exact ⟨hi₁.trans hi₂.symm, hy₁.trans hy₂.symm, he₁.trans he₂.symm⟩
  | some v =>
      obtain ⟨hi₁, hy₁, he₁⟩ := hshown inv₁ hv
      obtain ⟨hi₂, hy₂, he₂⟩ := hshown inv₂ (h ▸ hv)
      exact ⟨hi₁.trans hi₂.symm, hy₁.trans hy₂.symm, he₁.trans he₂.symm⟩

/-- Two runs with the same operations on a subscriber, and any others on other subscribers and
channels, leave the same messages in its queue and have yielded the same ones to its consumer,
timestamps left out. -/
theorem subscribers_isolated {acts₁ acts₂ : List (BusAction P)} {σ₁ σ₂ : BusState P}
    (run₁ : Run step start acts₁ σ₁) (run₂ : Run step start acts₂ σ₂) {r₁ r₂ : Nat}
    (same : operationsOn acts₁ r₁ = operationsOn acts₂ r₂) :
    σ₁.untimedItems r₁ = σ₂.untimedItems r₂ ∧ σ₁.untimedYielded r₁ = σ₂.untimedYielded r₂ ∧
      (σ₁.consumers r₁).ended = (σ₂.consumers r₂).ended := by
  apply (inv_of_run run₁).eq_of_inbox_eq (inv_of_run run₂)
  rw [inbox_of_run run₁, inbox_of_run run₂, same]

/-- A subscriber that has the channel for itself. -/
def aloneActs : List (BusAction Nat) :=
  [.subscribe "ch" "s" 2, .publish "ch" 1 "" false 0, .publish "ch" 2 "" true 0,
    .publish "ch" 3 "" false 0, .consume 0]

/-- The same next to a full queue, a subscriber that leaves and another channel that closes. -/
def crowdedActs : List (BusAction Nat) :=
  [.subscribe "ch" "slow" 1, .subscribe "other" "s" 5, .publish "ch" 9 "" false 5,
    .subscribe "ch" "s" 2, .publish "ch" 1 "" false 6, .unsubscribe 0, .publish "ch" 2 "" true 7,
    .publish "other" 8 "" true 7, .closeChannel "other", .publish "ch" 3 "" false 8, .consume 2]

theorem subscribers_isolated_crowded :
    let alone := (exec step start aloneActs).get (by decide)
    let crowded := (exec step start crowdedActs).get (by decide)
    alone.untimedItems 0 = crowded.untimedItems 2 ∧
      alone.untimedItems 0 = [some ⟨"ch", 3, 0, ""⟩] := by
  have run₁ := run_get (show (exec step start aloneActs).isSome from by decide)
  have run₂ := run_get (show (exec step start crowdedActs).isSome from by decide)
  have same : operationsOn aloneActs 0 = operationsOn crowdedActs 2 := by decide
  exact ⟨(subscribers_isolated run₁ run₂ same).1, by decide⟩

end BusState

end WebSocketPatterns.PubSub
