import WebSocketPatterns.PubSub.MessageBus
import WebSocketPatterns.Transition.Run

/-!
# Runs of the bus

A state of the system is the bus together with the subscribers that `subscribe`
returned and the one consumer each of them has. An action is one call of a bus
method, or one step of a consumer: its `queue.get()` returns an item. The field
`stopped` is a record of the run that no code reads: what a consumer had yielded
and what was buffered for it when its subscriber was first unsubscribed.
-/

namespace WebSocketPatterns.PubSub

variable {P : Type*}

/-- What had been yielded and what was buffered at the first unsubscription. -/
structure Stop (P : Type*) where
  yielded : List (Message P)
  buffered : List (Message P)

/-- The bus, its clients, and the record of first unsubscriptions. -/
structure BusState (P : Type*) where
  bus : InMemoryMessageBus P
  subscribers : List Subscriber
  consumers : Nat → Consumer P
  stopped : Nat → Option (Stop P)

/-- Calls of the bus methods and steps of the consumers; subscribers are named by the
position in which `subscribe` created them. -/
inductive BusAction (P : Type*)
  | subscribe (channel subscriberId : String) (maxQueueSize : Int)
  | publish (channel : String) (payload : P) (publisherId : String)
      (skipLagging : Bool) (now : ℚ)
  | unsubscribe (subscriber : Nat)
  | closeChannel (channel : String)
  | consume (subscriber : Nat)

namespace BusState

/-- An empty bus without clients. -/
def start : BusState P where
  bus := InMemoryMessageBus.new
  subscribers := []
  consumers := fun _ => {}
  stopped := fun _ => none

/-- The messages in a subscriber's queue, sentinels left out. -/
def buffered (σ : BusState P) (r : Nat) : List (Message P) :=
  (σ.bus.queues r).items.reduceOption

/-- What the subscriber's consumer has yielded so far. -/
def yielded (σ : BusState P) (r : Nat) : List (Message P) := (σ.consumers r).yielded

/-- Record the first unsubscription of the given subscribers. -/
def markStopped (σ : BusState P) (refs : List Nat) (r : Nat) : Option (Stop P) :=
  (σ.stopped r).or (if r ∈ refs then some ⟨σ.yielded r, σ.buffered r⟩ else none)

/-- One action; `none` when it is not possible, such as a consumer's step on an empty queue. -/
def step (σ : BusState P) : BusAction P → Option (BusState P)
  | .subscribe channel subscriberId maxQueueSize =>
      let created := σ.bus.subscribe channel subscriberId maxQueueSize
      some { σ with bus := created.2, subscribers := σ.subscribers ++ [created.1] }
  | .publish channel payload publisherId skipLagging now =>
      some { σ with bus := (σ.bus.publish channel payload publisherId skipLagging now).1 }
  | .unsubscribe r =>
      (σ.subscribers[r]?).map fun sub : Subscriber =>
        { σ with bus := σ.bus.unsubscribe sub, stopped := σ.markStopped [sub.queue] }
  | .closeChannel channel =>
      some { σ with
        bus := σ.bus.closeChannel channel
        stopped := σ.markStopped ((σ.bus.subs channel).map Subscriber.queue) }
  | .consume r =>
      if (σ.consumers r).ended then none
      else
        (σ.bus.queues r).getNowait.map fun got =>
          { σ with
            bus := { σ.bus with queues := Function.update σ.bus.queues r got.2 }
            consumers := Function.update σ.consumers r ((σ.consumers r).resume got.1) }

/-- The subscribers an action unsubscribes. -/
def stops (σ : BusState P) : BusAction P → List Nat
  | .unsubscribe r => [r]
  | .closeChannel channel => (σ.bus.subs channel).map Subscriber.queue
  | _ => []

/-- The message a publish adds to the given subscriber's queue: it is subscribed to the
channel, was not unsubscribed, is not skipped as lagging, and has room. -/
def accepted (σ : BusState P) (r : Nat) : BusAction P → Option (Message P)
  | .publish channel payload publisherId skipLagging now =>
      (σ.subscribers[r]?).bind fun sub : Subscriber =>
        if sub.channel = channel ∧ σ.stopped r = none ∧
            ¬ (skipLagging = true ∧ σ.bus.isLagging sub = true) ∧ ¬ (σ.bus.queues r).full
        then some ⟨channel, payload, now, publisherId⟩ else none
  | _ => none

/-- Subscribed to the channel and not unsubscribed since. -/
def isLive (σ : BusState P) (channel : String) (sub : Subscriber) : Bool :=
  decide (sub.channel = channel) && (σ.stopped sub.queue).isNone

/-- What holds between any two actions. -/
structure Inv (σ : BusState P) : Prop where
  counted : σ.bus.nextQueue = σ.subscribers.length
  numbered : σ.subscribers.map Subscriber.queue = List.range σ.subscribers.length
  listed : ∀ ch, σ.bus.subs ch = σ.subscribers.filter (σ.isLive ch)
  keyed : ∀ ch, σ.bus.channels.lookup ch ≠ some []
  ordered : ∀ r, ∃ k, (σ.bus.queues r).items = (σ.buffered r).map some ++ List.replicate k none
  running : ∀ r, σ.stopped r = none →
    (σ.consumers r).ended = false ∧ none ∉ (σ.bus.queues r).items
  drained : ∀ r, (σ.consumers r).ended = true → σ.buffered r = []
  kept : ∀ r s, σ.stopped r = some s → σ.yielded r ++ σ.buffered r = s.yielded ++ s.buffered
  known : ∀ r, σ.subscribers.length ≤ r →
    σ.stopped r = none ∧ σ.yielded r = [] ∧ (σ.bus.queues r).items = []

theorem start_inv : (start : BusState P).Inv where
  counted := rfl
  numbered := rfl
  listed := by simp [start, InMemoryMessageBus.new, InMemoryMessageBus.subs]
  keyed := by simp [start, InMemoryMessageBus.new]
  ordered := fun r => ⟨0, rfl⟩
  running := fun r _ => ⟨rfl, by simp [start, InMemoryMessageBus.new]⟩
  drained := by simp [start]
  kept := by simp [start]
  known := fun r _ => ⟨rfl, rfl, rfl⟩

theorem markStopped_eq_none_iff (σ : BusState P) (refs : List Nat) (r : Nat) :
    σ.markStopped refs r = none ↔ σ.stopped r = none ∧ r ∉ refs := by
  simp [markStopped]

/-- Marking keeps what is recorded and records the present for the newly stopped. -/
theorem markStopped_eq_some_iff (σ : BusState P) (refs : List Nat) (r : Nat) (s : Stop P) :
    σ.markStopped refs r = some s ↔
      σ.stopped r = some s ∨
        σ.stopped r = none ∧ r ∈ refs ∧ s = ⟨σ.yielded r, σ.buffered r⟩ := by
  cases h : σ.stopped r with
  | none => simp [markStopped, h, eq_comm]
  | some t => simp [markStopped, h]

/-- A consumer that steps has not ended, and gets an item. -/
theorem step_consume {σ τ : BusState P} {r : Nat} (h : σ.step (.consume r) = some τ) :
    ∃ item q, (σ.consumers r).ended = false ∧
      (σ.bus.queues r).getNowait = some (item, q) ∧
      τ = { σ with
        bus := { σ.bus with queues := Function.update σ.bus.queues r q }
        consumers := Function.update σ.consumers r ((σ.consumers r).resume item) } := by
  simp only [BusState.step] at h
  split at h
  · simp at h
  · rename_i hrun
    obtain ⟨⟨item, q⟩, hget, rfl⟩ := Option.map_eq_some_iff.mp h
    exact ⟨item, q, Bool.eq_false_iff.mpr hrun, hget, rfl⟩

section Registry

variable {σ : BusState P} (inv : σ.Inv)
include inv

/-- A subscriber's queue is named by the position in which it was created. -/
theorem Inv.getElem?_iff (r : Nat) (sub : Subscriber) :
    σ.subscribers[r]? = some sub ↔ sub ∈ σ.subscribers ∧ sub.queue = r := by
  have hqueue : ∀ (i : Nat) (s : Subscriber), σ.subscribers[i]? = some s → s.queue = i := by
    intro i s hs
    have hi : i < σ.subscribers.length := (List.getElem?_eq_some_iff.mp hs).1
    have hmap : (σ.subscribers.map Subscriber.queue)[i]? = some s.queue := by simp [hs]
    rw [inv.numbered, List.getElem?_range hi] at hmap
    exact (Option.some.inj hmap).symm
  constructor
  · intro h
    exact ⟨List.mem_of_getElem? h, hqueue r sub h⟩
  · rintro ⟨hm, rfl⟩
    obtain ⟨i, hi⟩ := List.mem_iff_getElem?.mp hm
    rwa [hqueue i sub hi]

theorem Inv.queues_nodup : (σ.subscribers.map Subscriber.queue).Nodup := by
  rw [inv.numbered]
  exact List.nodup_range

/-- A created subscriber is found under the name of its queue. -/
theorem Inv.getElem?_queue {sub : Subscriber} (h : sub ∈ σ.subscribers) :
    σ.subscribers[sub.queue]? = some sub :=
  (inv.getElem?_iff sub.queue sub).mpr ⟨h, rfl⟩

theorem Inv.queue_lt {sub : Subscriber} (h : sub ∈ σ.subscribers) :
    sub.queue < σ.subscribers.length :=
  (List.getElem?_eq_some_iff.mp (inv.getElem?_queue h)).1

/-- Created subscribers with the same queue are the same. -/
theorem Inv.eq_of_queue_eq {s t : Subscriber} (hs : s ∈ σ.subscribers) (ht : t ∈ σ.subscribers)
    (h : s.queue = t.queue) : s = t :=
  List.inj_on_of_nodup_map inv.queues_nodup hs ht h

theorem Inv.mem_subs_iff (ch : String) (sub : Subscriber) :
    sub ∈ σ.bus.subs ch ↔
      sub ∈ σ.subscribers ∧ sub.channel = ch ∧ σ.stopped sub.queue = none := by
  rw [inv.listed, List.mem_filter]
  simp [isLive]

theorem Inv.subs_queues_nodup (ch : String) :
    ((σ.bus.subs ch).map Subscriber.queue).Nodup := by
  rw [inv.listed]
  exact inv.queues_nodup.sublist (List.filter_sublist.map _)

/-- A subscriber that was never unsubscribed has only messages in its queue. -/
theorem Inv.items_of_running {r : Nat} (h : σ.stopped r = none) :
    (σ.bus.queues r).items = (σ.buffered r).map some := by
  obtain ⟨k, hk⟩ := inv.ordered r
  cases k with
  | zero => simpa using hk
  | succ k =>
      have hmem : none ∈ (σ.bus.queues r).items := by
        rw [hk]
        simp
      exact absurd hmem (inv.running r h).2

end Registry

section Steps

variable {σ : BusState P} (inv : σ.Inv)
include inv

theorem Inv.subscribe (channel subscriberId : String) (maxQueueSize : Int) :
    let created := σ.bus.subscribe channel subscriberId maxQueueSize
    Inv { σ with bus := created.2, subscribers := σ.subscribers ++ [created.1] } := by
  have hnew := inv.known σ.subscribers.length le_rfl
  have hq : ∀ r, (σ.bus.subscribe channel subscriberId maxQueueSize).2.queues r =
      if r = σ.subscribers.length then AsyncQueue.new maxQueueSize else σ.bus.queues r := by
    intro r
    rw [InMemoryMessageBus.subscribe_queues, inv.counted]
  constructor
  case counted => simp [InMemoryMessageBus.subscribe, inv.counted]
  case numbered =>
    simp [InMemoryMessageBus.subscribe, inv.numbered, inv.counted, List.range_succ]
  case listed =>
    intro ch
    rw [InMemoryMessageBus.subscribe_subs, List.filter_append]
    by_cases hc : ch = channel
    · subst hc
      rw [if_pos rfl, inv.listed]
      congr 1
      simp [isLive, InMemoryMessageBus.subscribe, inv.counted, hnew.1]
    · rw [if_neg hc, inv.listed]
      have hnot : ([(σ.bus.subscribe channel subscriberId maxQueueSize).1].filter
          (σ.isLive ch)) = [] := by
        simp [isLive, InMemoryMessageBus.subscribe, Ne.symm hc]
      exact (List.append_nil _).symm.trans (congrArg _ hnot.symm)
  case keyed =>
    intro ch
    simp only [InMemoryMessageBus.subscribe, Dict.lookup_set]
    split
    · simp
    · exact inv.keyed ch
  case ordered =>
    intro r
    simp only [buffered, hq]
    split
    · exact ⟨0, by simp⟩
    · exact inv.ordered r
  case running =>
    intro r hr
    simp only [hq]
    split
    · rename_i he
      exact ⟨(inv.running r hr).1, by simp⟩
    · exact inv.running r hr
  case drained =>
    intro r hr
    simp only [buffered, hq]
    split
    · simp
    · exact inv.drained r hr
  case kept =>
    intro r s hs
    have hr : r ≠ σ.subscribers.length := by
      rintro rfl
      simp [hnew.1] at hs
    simpa only [buffered, yielded, hq, if_neg hr] using inv.kept r s hs
  case known =>
    intro r hr
    simp only [List.length_append, List.length_singleton] at hr
    have hne : r ≠ σ.subscribers.length := by omega
    simpa only [yielded, hq, if_neg hne] using inv.known r (by omega)

section Publish

variable (channel : String) (payload : P) (publisherId : String) (skipLagging : Bool) (now : ℚ)

/-- The subscriber that gains the message is listed and accepts it. -/
theorem Inv.accepted_eq_some_iff (r : Nat) (msg : Message P) :
    σ.accepted r (.publish channel payload publisherId skipLagging now) = some msg ↔
      (∃ sub ∈ σ.bus.subs channel, sub.queue = r ∧ σ.bus.accepts skipLagging sub = true) ∧
        msg = ⟨channel, payload, now, publisherId⟩ := by
  simp only [accepted, Option.bind_eq_some_iff, Option.ite_none_right_eq_some,
    inv.getElem?_iff, inv.mem_subs_iff, InMemoryMessageBus.accepts_iff]
  constructor
  · rintro ⟨sub, ⟨hm, rfl⟩, ⟨hc, hs, hl, hf⟩, he⟩
    exact ⟨⟨sub, ⟨hm, hc, hs⟩, rfl, hl, hf⟩, (Option.some.inj he).symm⟩
  · rintro ⟨⟨sub, ⟨hm, hc, hs⟩, rfl, hl, hf⟩, rfl⟩
    exact ⟨sub, ⟨hm, rfl⟩, ⟨hc, hs, hl, hf⟩, rfl⟩

/-- A publish appends the message to exactly the accepting queues. -/
theorem Inv.publish_items (r : Nat) :
    ((σ.bus.publish channel payload publisherId skipLagging now).1.queues r).items =
      (σ.bus.queues r).items ++
        ((σ.accepted r (.publish channel payload publisherId skipLagging now)).map
          some).toList := by
  obtain ⟨_, hsame, hput⟩ := InMemoryMessageBus.publishLoop_spec
    ⟨channel, payload, now, publisherId⟩ skipLagging (σ.bus.subs channel) σ.bus 0
    (inv.subs_queues_nodup channel)
  cases ha : σ.accepted r (.publish channel payload publisherId skipLagging now) with
  | none =>
      have hnone : ∀ sub ∈ σ.bus.subs channel, sub.queue = r →
          σ.bus.accepts skipLagging sub = false := by
        intro sub hm hq
        by_contra hacc
        have hsome := (inv.accepted_eq_some_iff channel payload publisherId skipLagging now r
          _).mpr ⟨⟨sub, hm, hq, by simpa using hacc⟩, rfl⟩
        simp [ha] at hsome
      simpa [InMemoryMessageBus.publish] using congrArg AsyncQueue.items (hsame r hnone)
  | some msg =>
      obtain ⟨⟨sub, hm, rfl, hacc⟩, rfl⟩ :=
        (inv.accepted_eq_some_iff channel payload publisherId skipLagging now r msg).mp ha
      simpa [InMemoryMessageBus.publish] using hput sub hm hacc

/-- What a publish does to the queue of one subscriber, in terms of that subscriber. -/
theorem Inv.publish_items_of_mem {sub : Subscriber} (hsub : sub ∈ σ.subscribers) :
    ((σ.bus.publish channel payload publisherId skipLagging now).1.queues sub.queue).items =
      (σ.bus.queues sub.queue).items ++
        if sub.channel = channel ∧ σ.stopped sub.queue = none ∧
            ¬ (skipLagging = true ∧ σ.bus.isLagging sub = true) ∧ ¬ (σ.bus.queues sub.queue).full
        then [some ⟨channel, payload, now, publisherId⟩] else [] := by
  rw [inv.publish_items, accepted, inv.getElem?_queue hsub, Option.bind_some]
  split <;> rfl

theorem Inv.publish_buffered (r : Nat) :
    ((σ.bus.publish channel payload publisherId skipLagging now).1.queues r).items.reduceOption =
      σ.buffered r ++
        (σ.accepted r (.publish channel payload publisherId skipLagging now)).toList := by
  rw [inv.publish_items, List.reduceOption_append, buffered]
  cases σ.accepted r (.publish channel payload publisherId skipLagging now) <;> rfl

/-- The number a publish returns is the number of queues that gained the message. -/
theorem Inv.publish_delivered :
    (σ.bus.publish channel payload publisherId skipLagging now).2 =
      (List.range σ.subscribers.length).countP fun r =>
        (σ.accepted r (.publish channel payload publisherId skipLagging now)).isSome := by
  obtain ⟨hcount, _⟩ := InMemoryMessageBus.publishLoop_spec
    ⟨channel, payload, now, publisherId⟩ skipLagging (σ.bus.subs channel) σ.bus 0
    (inv.subs_queues_nodup channel)
  rw [InMemoryMessageBus.publish, hcount, Nat.zero_add, ← inv.numbered, List.countP_map,
    inv.listed, List.countP_filter]
  apply List.countP_congr
  intro sub hm
  simp only [Function.comp_apply, Option.isSome_iff_exists, inv.accepted_eq_some_iff,
    Bool.and_eq_true]
  constructor
  · rintro ⟨hacc, hlive⟩
    have hlisted : sub ∈ σ.bus.subs channel := by
      rw [inv.listed]
      exact List.mem_filter.mpr ⟨hm, hlive⟩
    exact ⟨_, ⟨sub, hlisted, rfl, hacc⟩, rfl⟩
  · rintro ⟨_, ⟨sub', hlisted, hq, hacc⟩, _⟩
    obtain rfl := inv.eq_of_queue_eq ((inv.mem_subs_iff channel sub').mp hlisted).1 hm hq
    rw [inv.listed] at hlisted
    exact ⟨hacc, (List.mem_filter.mp hlisted).2⟩

theorem Inv.publish :
    Inv { σ with bus := (σ.bus.publish channel payload publisherId skipLagging now).1 } := by
  have hitems := inv.publish_items channel payload publisherId skipLagging now
  have hbuf := inv.publish_buffered channel payload publisherId skipLagging now
  -- a subscriber that was unsubscribed, or not yet created, gains nothing
  have hquiet : ∀ r, (σ.stopped r = none → σ.subscribers.length ≤ r) →
      σ.accepted r (.publish channel payload publisherId skipLagging now) = none := by
    intro r hr
    rw [Option.eq_none_iff_forall_ne_some]
    intro msg hmsg
    obtain ⟨⟨sub, hm, rfl, _⟩, _⟩ :=
      (inv.accepted_eq_some_iff channel payload publisherId skipLagging now r msg).mp hmsg
    obtain ⟨hin, _, hs⟩ := (inv.mem_subs_iff channel sub).mp hm
    have hlt := inv.queue_lt hin
    exact absurd (hr hs) (by omega)
  constructor
  case counted => simpa using inv.counted
  case numbered => exact inv.numbered
  case listed =>
    intro ch
    have hsubs : (σ.bus.publish channel payload publisherId skipLagging now).1.subs ch =
        σ.bus.subs ch := by
      simp only [InMemoryMessageBus.subs, InMemoryMessageBus.publish_channels]
    exact hsubs.trans (inv.listed ch)
  case keyed =>
    intro ch
    simpa using inv.keyed ch
  case ordered =>
    intro r
    change ∃ k, (InMemoryMessageBus.queues _ r).items =
      (InMemoryMessageBus.queues _ r).items.reduceOption.map some ++ List.replicate k none
    rw [hbuf, hitems]
    cases ha : σ.accepted r (.publish channel payload publisherId skipLagging now) with
    | none => simpa using inv.ordered r
    | some msg =>
        have hrun : σ.stopped r = none := by
          by_contra hs
          simp [hquiet r (fun h => absurd h hs)] at ha
        exact ⟨0, by simp [inv.items_of_running hrun]⟩
  case running =>
    intro r hr
    refine ⟨(inv.running r hr).1, ?_⟩
    simp only [hitems, List.mem_append, not_or]
    refine ⟨(inv.running r hr).2, ?_⟩
    cases σ.accepted r (.publish channel payload publisherId skipLagging now) <;> simp
  case drained =>
    intro r hr
    have hs : σ.stopped r ≠ none := by
      intro hs
      simp [(inv.running r hs).1] at hr
    simpa [buffered, hitems, hquiet r (fun h => absurd h hs)] using inv.drained r hr
  case kept =>
    intro r s hs
    have hq := hquiet r (fun h => by simp [h] at hs)
    simpa [buffered, yielded, hitems, hq] using inv.kept r s hs
  case known =>
    intro r hr
    obtain ⟨hs, hy, hi⟩ := inv.known r hr
    refine ⟨hs, hy, ?_⟩
    simp [hitems, hi, hquiet r (fun _ => hr)]

end Publish

theorem Inv.stop {bus' : InMemoryMessageBus P} {refs : List Nat}
    (hn : bus'.nextQueue = σ.bus.nextQueue)
    (hl : ∀ ch, bus'.subs ch =
      (σ.subscribers.filter (σ.isLive ch)).filter fun sub => decide (sub.queue ∉ refs))
    (hk : ∀ ch, bus'.channels.lookup ch ≠ some [])
    (hq : ∀ r, bus'.queues r =
      if r ∈ refs then InMemoryMessageBus.offer (σ.bus.queues r) none else σ.bus.queues r)
    (hr : ∀ r ∈ refs, r < σ.subscribers.length) :
    Inv { σ with bus := bus', stopped := σ.markStopped refs } := by
  -- a queue keeps its items or gains one sentinel behind them
  have hitems : ∀ r, ∃ k, (bus'.queues r).items =
      (σ.bus.queues r).items ++ List.replicate k none := by
    intro r
    rw [hq r]
    by_cases hm : r ∈ refs
    · by_cases hfull : (σ.bus.queues r).full
      · exact ⟨0, by simp [hm, InMemoryMessageBus.offer_of_full none hfull]⟩
      · exact ⟨1, by simp [hm, InMemoryMessageBus.offer_items none hfull]⟩
    · exact ⟨0, by simp [hm]⟩
  have hbuf : ∀ r, (bus'.queues r).items.reduceOption = σ.buffered r := by
    intro r
    rw [hq r]
    split
    · exact InMemoryMessageBus.offer_none_reduceOption _
    · rfl
  constructor
  case counted => exact hn.trans inv.counted
  case numbered => exact inv.numbered
  case listed =>
    intro ch
    rw [hl ch, List.filter_filter]
    apply List.filter_congr
    intro sub _
    rw [Bool.eq_iff_iff]
    simp [isLive, markStopped_eq_none_iff]
    tauto
  case keyed => exact hk
  case ordered =>
    intro r
    obtain ⟨k, hk⟩ := inv.ordered r
    obtain ⟨j, hj⟩ := hitems r
    refine ⟨k + j, ?_⟩
    change (bus'.queues r).items = (bus'.queues r).items.reduceOption.map some ++ _
    rw [hbuf, hj, hk, List.append_assoc, List.replicate_append_replicate]
  case running =>
    intro r h
    obtain ⟨hs, hm⟩ := (markStopped_eq_none_iff σ refs r).mp h
    simpa only [hq, if_neg hm] using inv.running r hs
  case drained =>
    intro r h
    simpa only [buffered, hbuf] using inv.drained r h
  case kept =>
    intro r s hs
    simp only [buffered, yielded, hbuf]
    rcases (markStopped_eq_some_iff σ refs r s).mp hs with h | ⟨_, _, rfl⟩
    · exact inv.kept r s h
    · rfl
  case known =>
    intro r h
    have hm : r ∉ refs := fun hm => absurd (hr r hm) (by simpa using h)
    obtain ⟨hs, hy, hi⟩ := inv.known r h
    refine ⟨(markStopped_eq_none_iff σ refs r).mpr ⟨hs, hm⟩, hy, ?_⟩
    simpa only [hq, if_neg hm] using hi

/-- A listed subscriber whose queue is among those of another channel does not exist. -/
theorem Inv.queue_ne {ch : String} {s t : Subscriber} (hs : s ∈ σ.bus.subs ch)
    (ht : t ∈ σ.subscribers) (hne : ch ≠ t.channel) : s.queue ≠ t.queue := by
  intro h
  obtain ⟨hin, hc, _⟩ := (inv.mem_subs_iff ch s).mp hs
  obtain rfl := inv.eq_of_queue_eq hin ht h
  exact hne hc.symm

theorem Inv.unsubscribe {sub : Subscriber} (hsub : sub ∈ σ.subscribers) :
    Inv { σ with bus := σ.bus.unsubscribe sub, stopped := σ.markStopped [sub.queue] } := by
  apply inv.stop
  case hn => simp
  case hl =>
    intro ch
    rw [InMemoryMessageBus.unsubscribe_subs, ← inv.listed]
    by_cases hc : ch = sub.channel
    · have hnodup : (σ.bus.subs ch).Nodup := List.Nodup.of_map _ (inv.subs_queues_nodup ch)
      rw [if_pos hc, hnodup.erase_eq_filter]
      apply List.filter_congr
      intro s hs
      have hin := ((inv.mem_subs_iff ch s).mp hs).1
      rw [Bool.eq_iff_iff]
      simp only [bne_iff_ne, ne_eq, List.mem_singleton, decide_eq_true_eq, not_iff_not]
      exact ⟨congrArg _, inv.eq_of_queue_eq hin hsub⟩
    · rw [if_neg hc, eq_comm, List.filter_eq_self]
      intro s hs
      simpa using inv.queue_ne hs hsub hc
  case hk =>
    intro ch
    rw [InMemoryMessageBus.unsubscribe_lookup]
    split
    · split
      · simp
      · rename_i hne
        simpa using hne
    · exact inv.keyed ch
  case hq =>
    intro r
    rw [InMemoryMessageBus.unsubscribe_queues, Function.update_apply]
    by_cases hr : r = sub.queue
    · simp [hr]
    · simp [hr]
  case hr =>
    intro r hr
    obtain rfl := List.mem_singleton.mp hr
    exact inv.queue_lt hsub

/-- Closing a channel empties its list, touches no other, and offers each listed queue the
sentinel. -/
theorem Inv.closeChannel_spec (channel : String) :
    let closed := σ.bus.closeChannel channel
    closed.nextQueue = σ.bus.nextQueue ∧
    closed.subs channel = [] ∧
    (∀ ch, ch ≠ channel → closed.channels.lookup ch = σ.bus.channels.lookup ch) ∧
    (closed.channels.lookup channel = some [] → σ.bus.channels.lookup channel = some []) ∧
    ∀ r, closed.queues r =
      if r ∈ (σ.bus.subs channel).map Subscriber.queue
      then InMemoryMessageBus.offer (σ.bus.queues r) none else σ.bus.queues r := by
  apply InMemoryMessageBus.foldl_unsubscribe channel (σ.bus.subs channel) σ.bus rfl
  · intro sub h
    exact ((inv.mem_subs_iff channel sub).mp h).2.1
  · exact inv.subs_queues_nodup channel

theorem Inv.closeChannel (channel : String) :
    Inv { σ with
      bus := σ.bus.closeChannel channel
      stopped := σ.markStopped ((σ.bus.subs channel).map Subscriber.queue) } := by
  obtain ⟨hn, hempty, hother, hkey, hqueues⟩ := inv.closeChannel_spec channel
  apply inv.stop
  case hn => exact hn
  case hl =>
    intro ch
    rw [← inv.listed]
    by_cases hc : ch = channel
    · subst hc
      refine hempty.trans (List.filter_eq_nil_iff.mpr ?_).symm
      intro s hs
      simpa using ⟨s, hs, rfl⟩
    · have hsame : (σ.bus.closeChannel channel).subs ch = σ.bus.subs ch := by
        rw [InMemoryMessageBus.subs, hother ch hc]
        rfl
      rw [hsame, eq_comm, List.filter_eq_self]
      intro s hs
      simp only [List.mem_map, not_exists, not_and, decide_eq_true_eq]
      intro t ht
      obtain ⟨hin, hct, _⟩ := (inv.mem_subs_iff channel t).mp ht
      exact (inv.queue_ne hs hin (hct ▸ hc)).symm
  case hk =>
    intro ch
    by_cases hc : ch = channel
    · subst hc
      exact fun h => inv.keyed ch (hkey h)
    · rw [hother ch hc]
      exact inv.keyed ch
  case hq => exact hqueues
  case hr =>
    intro r hr
    obtain ⟨s, hs, rfl⟩ := List.mem_map.mp hr
    exact inv.queue_lt ((inv.mem_subs_iff channel s).mp hs).1

/-- A consumer's step takes the oldest item out of its own queue. -/
theorem Inv.consume {r : Nat} {item : Option (Message P)}
    {q : AsyncQueue (Option (Message P))} (hrun : (σ.consumers r).ended = false)
    (hget : (σ.bus.queues r).getNowait = some (item, q)) :
    Inv { σ with
      bus := { σ.bus with queues := Function.update σ.bus.queues r q }
      consumers := Function.update σ.consumers r ((σ.consumers r).resume item) } := by
  obtain ⟨hitems, _⟩ := (AsyncQueue.getNowait_eq_some_iff _ _ _).mp hget
  have hbuf : σ.buffered r = item.toList ++ q.items.reduceOption := by
    rw [buffered, hitems]
    cases item <;> rfl
  have hordered : ∃ k, q.items = q.items.reduceOption.map some ++ List.replicate k none := by
    obtain ⟨k, hk⟩ := inv.ordered r
    rw [hitems, hbuf] at hk
    cases item with
    | some msg => exact ⟨k, by simpa using hk⟩
    | none =>
        cases hq : q.items.reduceOption with
        | cons msg rest => simp [hq] at hk
        | nil =>
            cases k with
            | zero => simp [hq] at hk
            | succ k => exact ⟨k, by simpa [hq, List.replicate_succ] using hk⟩
  constructor
  case counted => exact inv.counted
  case numbered => exact inv.numbered
  case listed => exact inv.listed
  case keyed => exact inv.keyed
  case ordered =>
    intro j
    by_cases hj : j = r
    · subst hj
      simpa [buffered] using hordered
    · simpa [buffered, hj] using inv.ordered j
  case running =>
    intro j hs
    by_cases hj : j = r
    · subst hj
      have hnone : none ∉ (σ.bus.queues j).items := (inv.running j hs).2
      simp only [hitems, List.mem_cons, not_or] at hnone
      cases item with
      | none => exact absurd rfl hnone.1
      | some msg => simpa [Consumer.resume, hrun] using hnone.2
    · simpa [hj] using inv.running j hs
  case drained =>
    intro j hend
    by_cases hj : j = r
    · subst hj
      cases item with
      | some msg => simp [Consumer.resume, hrun] at hend
      | none =>
          obtain ⟨k, hk⟩ := inv.ordered j
          rw [hitems] at hk
          cases hb : σ.buffered j with
          | cons msg rest => simp [hb] at hk
          | nil =>
              have hempty : q.items.reduceOption = [] := hbuf.symm.trans hb
              simpa [buffered] using hempty
    · simpa [buffered, hj] using inv.drained j (by simpa [hj] using hend)
  case kept =>
    intro j s hs
    by_cases hj : j = r
    · subst hj
      have hkept := inv.kept j s hs
      rw [hbuf] at hkept
      cases item with
      | none => simpa [buffered, yielded, Consumer.resume] using hkept
      | some msg => simpa [buffered, yielded, Consumer.resume] using hkept
    · simpa [buffered, yielded, hj] using inv.kept j s hs
  case known =>
    intro j hlen
    have hj : j ≠ r := by
      intro hj
      subst hj
      simp [(inv.known j hlen).2.2] at hitems
    simpa [yielded, hj] using inv.known j hlen

/-- The subscriber named by an `unsubscribe` was created before. -/
theorem Inv.step_unsubscribe {τ : BusState P} {r : Nat}
    (h : σ.step (.unsubscribe r) = some τ) :
    ∃ sub ∈ σ.subscribers, sub.queue = r ∧
      τ = { σ with bus := σ.bus.unsubscribe sub, stopped := σ.markStopped [sub.queue] } := by
  obtain ⟨sub, hsub, rfl⟩ := Option.map_eq_some_iff.mp h
  obtain ⟨hin, hqueue⟩ := (inv.getElem?_iff r sub).mp hsub
  exact ⟨sub, hin, hqueue, rfl⟩

/-- Every action keeps the invariant. -/
theorem Inv.step {τ : BusState P} {a : BusAction P} (h : σ.step a = some τ) : τ.Inv := by
  cases a with
  | subscribe channel subscriberId maxQueueSize =>
      obtain rfl := Option.some.inj h
      exact inv.subscribe channel subscriberId maxQueueSize
  | publish channel payload publisherId skipLagging now =>
      obtain rfl := Option.some.inj h
      exact inv.publish channel payload publisherId skipLagging now
  | unsubscribe r =>
      obtain ⟨sub, hsub, _, rfl⟩ := inv.step_unsubscribe h
      exact inv.unsubscribe hsub
  | closeChannel channel =>
      obtain rfl := Option.some.inj h
      exact inv.closeChannel channel
  | consume r =>
      obtain ⟨item, q, hrun, hget, rfl⟩ := step_consume h
      exact inv.consume hrun hget

/-- Only `subscribe` sets the bound of a queue, and it does so for the queue it creates. -/
theorem Inv.step_maxsize {τ : BusState P} {a : BusAction P} (h : σ.step a = some τ) {r : Nat}
    (hr : r < σ.subscribers.length) :
    (τ.bus.queues r).maxsize = (σ.bus.queues r).maxsize := by
  cases a with
  | subscribe channel subscriberId maxQueueSize =>
      obtain rfl := Option.some.inj h
      have hne : r ≠ σ.bus.nextQueue := inv.counted ▸ hr.ne
      rw [InMemoryMessageBus.subscribe_queues, if_neg hne]
  | publish channel payload publisherId skipLagging now =>
      obtain rfl := Option.some.inj h
      exact InMemoryMessageBus.publishLoop_maxsize _ _ _ _ _ _
  | unsubscribe i =>
      obtain ⟨sub, _, _, rfl⟩ := inv.step_unsubscribe h
      by_cases hi : r = sub.queue
      · simp [InMemoryMessageBus.unsubscribe_queues, hi]
      · simp [InMemoryMessageBus.unsubscribe_queues, hi]
  | closeChannel channel =>
      obtain rfl := Option.some.inj h
      obtain ⟨_, _, _, _, hqueues⟩ := inv.closeChannel_spec channel
      simp only [hqueues]
      split
      · exact InMemoryMessageBus.offer_maxsize _ _
      · rfl
  | consume i =>
      obtain ⟨item, q, _, hget, rfl⟩ := step_consume h
      by_cases hi : r = i
      · subst hi
        simpa using ((AsyncQueue.getNowait_eq_some_iff _ _ _).mp hget).2
      · simp [hi]

/-- No action forgets or changes a subscriber; `subscribe` adds one. -/
theorem Inv.step_subscribers {τ : BusState P} {a : BusAction P} (h : σ.step a = some τ) :
    ((∀ channel subscriberId maxQueueSize, a ≠ .subscribe channel subscriberId maxQueueSize) ∧
      τ.subscribers = σ.subscribers) ∨
      ∃ channel subscriberId maxQueueSize,
        a = .subscribe channel subscriberId maxQueueSize ∧
        τ.subscribers = σ.subscribers ++
          [⟨subscriberId, channel, σ.subscribers.length, maxQueueSize⟩] ∧
        τ.bus.queues σ.subscribers.length = AsyncQueue.new maxQueueSize := by
  cases a with
  | subscribe channel subscriberId maxQueueSize =>
      obtain rfl := Option.some.inj h
      exact Or.inr ⟨channel, subscriberId, maxQueueSize, rfl,
        by simp [InMemoryMessageBus.subscribe, inv.counted]⟩
  | publish channel payload publisherId skipLagging now =>
      obtain rfl := Option.some.inj h
      exact Or.inl ⟨by simp, rfl⟩
  | unsubscribe i =>
      obtain ⟨_, _, _, rfl⟩ := inv.step_unsubscribe h
      exact Or.inl ⟨by simp, rfl⟩
  | closeChannel channel =>
      obtain rfl := Option.some.inj h
      exact Or.inl ⟨by simp, rfl⟩
  | consume i =>
      obtain ⟨_, _, _, _, rfl⟩ := step_consume h
      exact Or.inl ⟨by simp, rfl⟩

end Steps

/-- Every state of every run satisfies the invariant. -/
theorem inv_of_run {acts : List (BusAction P)} {σ : BusState P}
    (run : Transition.Run step start acts σ) : σ.Inv :=
  run.invariant (I := fun _ σ => σ.Inv) start_inv fun _ _ _ _ inv h => inv.step h

/-- Every subscriber's queue was created with the bound the subscriber records. -/
theorem maxsize_of_run {acts : List (BusAction P)} {σ : BusState P}
    (run : Transition.Run step start acts σ) :
    ∀ sub ∈ σ.subscribers, (σ.bus.queues sub.queue).maxsize = sub.maxQueueSize := by
  induction run with
  | nil => simp [start]
  | @snoc acts σ a τ run h ih =>
      have inv := inv_of_run run
      intro sub hsub
      have hold : sub ∈ σ.subscribers →
          (τ.bus.queues sub.queue).maxsize = sub.maxQueueSize := by
        intro hmem
        rw [inv.step_maxsize h (inv.queue_lt hmem), ih sub hmem]
      rcases inv.step_subscribers h with ⟨_, hsame⟩ | ⟨_, _, _, _, hadded, hqueue⟩
      · exact hold (hsame ▸ hsub)
      · rw [hadded, List.mem_append, List.mem_singleton] at hsub
        rcases hsub with hmem | rfl
        · exact hold hmem
        · rw [hqueue]
          rfl

end BusState

end WebSocketPatterns.PubSub
