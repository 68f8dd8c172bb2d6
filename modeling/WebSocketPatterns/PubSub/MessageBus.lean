import WebSocketPatterns.Collections.Dict
import WebSocketPatterns.Collections.Queues
import Mathlib.Algebra.Field.Rat
import Mathlib.Data.List.ReduceOption
import Mathlib.Logic.Function.Basic

/-!
# The in-memory message bus

Subscribers are values whose `queue` field is the identity of an
`asyncio.Queue` object, since two queues compare by identity. The queue
objects live in `InMemoryMessageBus.queues`, addressed by that identity. No
method of the bus suspends, so each is one function on the bus.
-/

namespace WebSocketPatterns.PubSub

/-- A published message; the payload is opaque to the bus. -/
structure Message (P : Type*) where
  channel : String
  payload : P
  timestamp : ℚ
  publisherId : String := ""
deriving DecidableEq

/-- A subscriber to a channel. Equality is that of the dataclass, field by field. -/
structure Subscriber where
  subscriberId : String
  channel : String
  queue : Nat
  maxQueueSize : Int := 256
deriving DecidableEq

/-- The registry of channels, with the queue objects its subscribers refer to. -/
structure InMemoryMessageBus (P : Type*) where
  channels : Dict String (List Subscriber)
  queues : Nat → AsyncQueue (Option (Message P))
  nextQueue : Nat

namespace InMemoryMessageBus

variable {P : Type*}

/-- A bus without channels. -/
def new : InMemoryMessageBus P where
  channels := ∅
  queues := fun _ => AsyncQueue.new 0
  nextQueue := 0

/-- `self._channels.get(channel, [])`. -/
def subs (bus : InMemoryMessageBus P) (channel : String) : List Subscriber :=
  (bus.channels.lookup channel).getD []

/-- Number of channels with a registry entry. -/
def channelCount (bus : InMemoryMessageBus P) : Nat := bus.channels.len

/-- Number of subscribers registered on a channel. -/
def subscriberCount (bus : InMemoryMessageBus P) (channel : String) : Nat :=
  (bus.subs channel).length

/-- `Subscriber.queue_depth`. -/
def queueDepth (bus : InMemoryMessageBus P) (sub : Subscriber) : Nat :=
  (bus.queues sub.queue).qsize

/-- `Subscriber.is_lagging`; the float `0.8` is the fraction `4/5`, and `int` truncates. -/
def isLagging (bus : InMemoryMessageBus P) (sub : Subscriber) : Bool :=
  decide ((sub.maxQueueSize * 4).tdiv 5 ≤ bus.queueDepth sub)

/-- `put_nowait` on one queue object; `none` is `QueueFull`. -/
def putNowait (bus : InMemoryMessageBus P) (queue : Nat) (item : Option (Message P)) :
    Option (InMemoryMessageBus P) :=
  ((bus.queues queue).putNowait item).map fun q =>
    { bus with queues := Function.update bus.queues queue q }

/-- Create a subscriber with a queue of its own and list it under its channel. -/
def subscribe (bus : InMemoryMessageBus P) (channel subscriberId : String)
    (maxQueueSize : Int := 256) : Subscriber × InMemoryMessageBus P :=
  let sub : Subscriber := ⟨subscriberId, channel, bus.nextQueue, maxQueueSize⟩
  (sub,
    { channels := bus.channels.set channel (bus.subs channel ++ [sub])
      queues := Function.update bus.queues bus.nextQueue (AsyncQueue.new maxQueueSize)
      nextQueue := bus.nextQueue + 1 })

/-- Remove a subscriber from its channel and put the `None` sentinel in its queue.
The list is mutated in place, its key popped once it is empty; `ValueError` of
`remove` and `QueueFull` of the sentinel are suppressed. -/
def unsubscribe (bus : InMemoryMessageBus P) (sub : Subscriber) : InMemoryMessageBus P :=
  let rest := (bus.subs sub.channel).erase sub
  let removed : InMemoryMessageBus P :=
    { bus with
      channels :=
        if rest.isEmpty then bus.channels.erase sub.channel
        else bus.channels.set sub.channel rest }
  (removed.putNowait sub.queue none).getD removed

/-- The loop of `publish` over the copied subscriber list. -/
def publishLoop (msg : Message P) (skipLagging : Bool) :
    List Subscriber → InMemoryMessageBus P → Nat → InMemoryMessageBus P × Nat
  | [], bus, delivered => (bus, delivered)
  | sub :: rest, bus, delivered =>
      if skipLagging && bus.isLagging sub then publishLoop msg skipLagging rest bus delivered
      else
        match bus.putNowait sub.queue (some msg) with
        | some bus' => publishLoop msg skipLagging rest bus' (delivered + 1)
        | none => publishLoop msg skipLagging rest bus delivered

/-- Publish to every subscriber of the channel; `now` is what `time.time()` returns. -/
def publish (bus : InMemoryMessageBus P) (channel : String) (payload : P)
    (publisherId : String) (skipLagging : Bool) (now : ℚ) : InMemoryMessageBus P × Nat :=
  publishLoop ⟨channel, payload, now, publisherId⟩ skipLagging (bus.subs channel) bus 0

/-- Unsubscribe every subscriber listed under the channel when the call starts. -/
def closeChannel (bus : InMemoryMessageBus P) (channel : String) : InMemoryMessageBus P :=
  (bus.subs channel).foldl unsubscribe bus

end InMemoryMessageBus

/-- The generator `messages(subscriber)`: what it has yielded and whether it has ended. -/
structure Consumer (P : Type*) where
  yielded : List (Message P) := []
  ended : Bool := false

namespace Consumer

variable {P : Type*}

/-- Resume the generator with the item `queue.get()` returned. -/
def resume (c : Consumer P) : Option (Message P) → Consumer P
  | none => { c with ended := true }
  | some msg => { c with yielded := c.yielded ++ [msg] }

end Consumer

/-! ## What each method does to the lists and to the queues -/

namespace InMemoryMessageBus

variable {P : Type*}

/-- A queue after a put whose `QueueFull` is suppressed. -/
def offer (q : AsyncQueue (Option (Message P))) (item : Option (Message P)) :
    AsyncQueue (Option (Message P)) :=
  (q.putNowait item).getD q

theorem putNowait_getD (bus : InMemoryMessageBus P) (queue : Nat) (item : Option (Message P)) :
    (bus.putNowait queue item).getD bus =
      { bus with queues := Function.update bus.queues queue (offer (bus.queues queue) item) } := by
  unfold putNowait offer
  cases (bus.queues queue).putNowait item with
  | none => simp
  | some q => rfl

theorem offer_of_full {q : AsyncQueue (Option (Message P))} (item : Option (Message P))
    (h : q.full) : offer q item = q := by
  simp [offer, (AsyncQueue.putNowait_eq_none_iff q item).mpr h]

theorem offer_items {q : AsyncQueue (Option (Message P))} (item : Option (Message P))
    (h : ¬ q.full) : (offer q item).items = q.items ++ [item] := by
  cases hp : q.putNowait item with
  | none => exact absurd ((AsyncQueue.putNowait_eq_none_iff q item).mp hp) h
  | some r => simpa [offer, hp] using ((AsyncQueue.putNowait_eq_some_iff q r item).mp hp).2.2

@[simp] theorem offer_maxsize (q : AsyncQueue (Option (Message P)))
    (item : Option (Message P)) : (offer q item).maxsize = q.maxsize := by
  cases hp : q.putNowait item with
  | none => simp [offer, hp]
  | some r => simpa [offer, hp] using AsyncQueue.putNowait_maxsize hp

/-- Offering the sentinel buffers no message. -/
@[simp] theorem offer_none_reduceOption (q : AsyncQueue (Option (Message P))) :
    (offer q none).items.reduceOption = q.items.reduceOption := by
  by_cases h : q.full
  · rw [offer_of_full none h]
  · rw [offer_items none h, List.reduceOption_append]
    simp

theorem subscribe_subs (bus : InMemoryMessageBus P) (channel subscriberId : String)
    (maxQueueSize : Int) (ch : String) :
    (bus.subscribe channel subscriberId maxQueueSize).2.subs ch =
      if ch = channel then
        bus.subs channel ++ [⟨subscriberId, channel, bus.nextQueue, maxQueueSize⟩]
      else bus.subs ch := by
  simp only [subscribe, subs, Dict.lookup_set]
  split <;> rfl

/-- A subscription makes one new queue and leaves all others alone. -/
theorem subscribe_queues (bus : InMemoryMessageBus P) (channel subscriberId : String)
    (maxQueueSize : Int) (r : Nat) :
    (bus.subscribe channel subscriberId maxQueueSize).2.queues r =
      if r = bus.nextQueue then AsyncQueue.new maxQueueSize else bus.queues r :=
  Function.update_apply _ _ _ _

@[simp] theorem unsubscribe_nextQueue (bus : InMemoryMessageBus P) (sub : Subscriber) :
    (bus.unsubscribe sub).nextQueue = bus.nextQueue := by
  simp [unsubscribe, putNowait_getD]

theorem unsubscribe_queues (bus : InMemoryMessageBus P) (sub : Subscriber) :
    (bus.unsubscribe sub).queues =
      Function.update bus.queues sub.queue (offer (bus.queues sub.queue) none) := by
  simp [unsubscribe, putNowait_getD]

theorem unsubscribe_lookup (bus : InMemoryMessageBus P) (sub : Subscriber) (ch : String) :
    (bus.unsubscribe sub).channels.lookup ch =
      if ch = sub.channel then
        if (bus.subs sub.channel).erase sub = [] then none
        else some ((bus.subs sub.channel).erase sub)
      else bus.channels.lookup ch := by
  simp only [unsubscribe, putNowait_getD, List.isEmpty_iff]
  by_cases he : (bus.subs sub.channel).erase sub = []
  · simp only [he, if_true, Dict.lookup_erase_eq]
  · simp only [he, if_false, Dict.lookup_set]

theorem unsubscribe_subs (bus : InMemoryMessageBus P) (sub : Subscriber) (ch : String) :
    (bus.unsubscribe sub).subs ch =
      if ch = sub.channel then (bus.subs ch).erase sub else bus.subs ch := by
  rw [subs, unsubscribe_lookup]
  by_cases hc : ch = sub.channel
  · subst hc
    by_cases he : (bus.subs sub.channel).erase sub = []
    · simp [he]
    · simp [he]
  · simp [hc, subs]

/-- The loop of `close_channel` over exactly the listed subscribers empties the list,
touches no other channel, and offers the sentinel to each listed queue once. -/
theorem foldl_unsubscribe (channel : String) (listed : List Subscriber) :
    ∀ bus : InMemoryMessageBus P, bus.subs channel = listed →
      (∀ sub ∈ listed, sub.channel = channel) → (listed.map Subscriber.queue).Nodup →
      let closed := listed.foldl unsubscribe bus
      closed.nextQueue = bus.nextQueue ∧
      closed.subs channel = [] ∧
      (∀ ch, ch ≠ channel → closed.channels.lookup ch = bus.channels.lookup ch) ∧
      (closed.channels.lookup channel = some [] → bus.channels.lookup channel = some []) ∧
      ∀ r, closed.queues r =
        if r ∈ listed.map Subscriber.queue then offer (bus.queues r) none else bus.queues r := by
  induction listed with
  | nil =>
      intro bus hs _ _
      exact ⟨rfl, hs, fun _ _ => rfl, id, fun r => by simp⟩
  | cons sub rest ih =>
      intro bus hs hch hnd
      have hc : sub.channel = channel := hch sub (by simp)
      have hnd' : sub.queue ∉ rest.map Subscriber.queue ∧
          (rest.map Subscriber.queue).Nodup := List.nodup_cons.mp hnd
      have hsubs : (bus.unsubscribe sub).subs channel = rest := by
        simp [unsubscribe_subs, hc, hs]
      obtain ⟨hn, he, hne, hemp, hq⟩ := ih (bus.unsubscribe sub) hsubs
        (fun s h => hch s (by simp [h])) hnd'.2
      refine ⟨by simpa using hn, he, ?_, ?_, ?_⟩
      · intro ch h
        have h' : ch ≠ sub.channel := hc ▸ h
        simpa [unsubscribe_lookup, h'] using hne ch h
      · intro h
        have hlast := hemp h
        rw [unsubscribe_lookup, if_pos hc.symm] at hlast
        split at hlast
        · simp at hlast
        · rename_i hne'
          exact absurd (Option.some.inj hlast) hne'
      · intro r
        rw [List.foldl_cons, hq r, unsubscribe_queues]
        by_cases hr : r = sub.queue
        · subst hr
          rw [if_neg hnd'.1, if_pos (by simp), Function.update_self]
        · simp [hr]

/-- The queue takes the message: it is not skipped as lagging and not full. -/
def accepts (bus : InMemoryMessageBus P) (skipLagging : Bool) (sub : Subscriber) : Bool :=
  !(skipLagging && bus.isLagging sub) && !decide (bus.queues sub.queue).full

theorem accepts_iff (bus : InMemoryMessageBus P) (skipLagging : Bool) (sub : Subscriber) :
    bus.accepts skipLagging sub = true ↔
      ¬ (skipLagging = true ∧ bus.isLagging sub = true) ∧ ¬ (bus.queues sub.queue).full := by
  cases skipLagging <;> simp [accepts]

theorem isLagging_iff (bus : InMemoryMessageBus P) (sub : Subscriber) :
    bus.isLagging sub = true ↔
      (sub.maxQueueSize * 4).tdiv 5 ≤ (bus.queues sub.queue).qsize :=
  decide_eq_true_iff

/-- Whether a subscriber accepts depends on its own queue alone. -/
theorem accepts_congr {bus bus' : InMemoryMessageBus P} {sub : Subscriber}
    (h : bus'.queues sub.queue = bus.queues sub.queue) (skipLagging : Bool) :
    bus'.accepts skipLagging sub = bus.accepts skipLagging sub := by
  rw [Bool.eq_iff_iff, accepts_iff, accepts_iff, isLagging_iff, isLagging_iff, h]

/-- What survives a put into any queue survives the loop of `publish`. -/
theorem publishLoop_keeps {I : InMemoryMessageBus P → Prop} {msg : Message P}
    (hput : ∀ (bus : InMemoryMessageBus P) (r : Nat) (q : AsyncQueue (Option (Message P))),
      (bus.queues r).putNowait (some msg) = some q → I bus →
        I { bus with queues := Function.update bus.queues r q })
    (skipLagging : Bool) (listed : List Subscriber) :
    ∀ (bus : InMemoryMessageBus P) (delivered : Nat), I bus →
      I (publishLoop msg skipLagging listed bus delivered).1 := by
  induction listed with
  | nil => exact fun bus delivered h => h
  | cons sub rest ih =>
      intro bus delivered h
      rw [publishLoop]
      split
      · exact ih bus delivered h
      · cases hq : (bus.queues sub.queue).putNowait (some msg) with
        | none => simpa [putNowait, hq] using ih bus delivered h
        | some q =>
            simpa [putNowait, hq] using ih _ (delivered + 1) (hput bus sub.queue q hq h)

/-- The loop of `publish` changes queue objects only. -/
theorem publishLoop_frame (msg : Message P) (skipLagging : Bool) (listed : List Subscriber)
    (bus : InMemoryMessageBus P) (delivered : Nat) :
    (publishLoop msg skipLagging listed bus delivered).1.channels = bus.channels ∧
      (publishLoop msg skipLagging listed bus delivered).1.nextQueue = bus.nextQueue :=
  publishLoop_keeps
    (I := fun after => after.channels = bus.channels ∧ after.nextQueue = bus.nextQueue)
    (fun _ _ _ _ h => h) skipLagging listed bus delivered ⟨rfl, rfl⟩

/-- The loop of `publish` keeps the bound of every queue. -/
theorem publishLoop_maxsize (msg : Message P) (skipLagging : Bool) (listed : List Subscriber)
    (r : Nat) (bus : InMemoryMessageBus P) (delivered : Nat) :
    ((publishLoop msg skipLagging listed bus delivered).1.queues r).maxsize =
      (bus.queues r).maxsize := by
  refine publishLoop_keeps (I := fun after => (after.queues r).maxsize = (bus.queues r).maxsize)
    ?_ skipLagging listed bus delivered rfl
  intro before target q hq hbefore
  by_cases hr : r = target
  · subst hr
    rw [← hbefore]
    simpa using AsyncQueue.putNowait_maxsize hq
  · simpa [hr] using hbefore

/-- The loop skips a subscriber whose queue does not accept, as lagging or as full. -/
theorem publishLoop_cons_of_rejects {bus : InMemoryMessageBus P} {skipLagging : Bool}
    {sub : Subscriber} (h : bus.accepts skipLagging sub = false) (msg : Message P)
    (rest : List Subscriber) (delivered : Nat) :
    publishLoop msg skipLagging (sub :: rest) bus delivered =
      publishLoop msg skipLagging rest bus delivered := by
  rw [publishLoop]
  split
  · rfl
  · rename_i hskip
    have hfull : (bus.queues sub.queue).full := by
      simpa [accepts, Bool.eq_false_iff.mpr hskip] using h
    simp [putNowait, (AsyncQueue.putNowait_eq_none_iff _ _).mpr hfull]

/-- The loop puts the message in an accepting queue and counts it. -/
theorem publishLoop_cons_of_accepts {bus : InMemoryMessageBus P} {skipLagging : Bool}
    {sub : Subscriber} (h : bus.accepts skipLagging sub = true) (msg : Message P)
    (rest : List Subscriber) (delivered : Nat) :
    ∃ q, q.items = (bus.queues sub.queue).items ++ [some msg] ∧
      publishLoop msg skipLagging (sub :: rest) bus delivered =
        publishLoop msg skipLagging rest
          { bus with queues := Function.update bus.queues sub.queue q } (delivered + 1) := by
  obtain ⟨hlag, hfull⟩ := (accepts_iff bus skipLagging sub).mp h
  have hskip : (skipLagging && bus.isLagging sub) = false := by
    simpa using hlag
  obtain ⟨q, hq⟩ : ∃ q, (bus.queues sub.queue).putNowait (some msg) = some q :=
    Option.ne_none_iff_exists'.mp
      fun hnone => hfull ((AsyncQueue.putNowait_eq_none_iff _ _).mp hnone)
  refine ⟨q, ((AsyncQueue.putNowait_eq_some_iff _ _ _).mp hq).2.2, ?_⟩
  rw [publishLoop]
  simp [hskip, putNowait, hq]

/-- The loop of `publish` over subscribers with distinct queues puts the message once into
every accepting queue, counts those, and leaves all other queues alone. -/
theorem publishLoop_spec (msg : Message P) (skipLagging : Bool) (listed : List Subscriber) :
    ∀ (bus : InMemoryMessageBus P) (delivered : Nat), (listed.map Subscriber.queue).Nodup →
      let result := publishLoop msg skipLagging listed bus delivered
      result.2 = delivered + listed.countP (bus.accepts skipLagging) ∧
      (∀ r, (∀ sub ∈ listed, sub.queue = r → bus.accepts skipLagging sub = false) →
        result.1.queues r = bus.queues r) ∧
      ∀ sub ∈ listed, bus.accepts skipLagging sub = true →
        (result.1.queues sub.queue).items = (bus.queues sub.queue).items ++ [some msg] := by
  induction listed with
  | nil =>
      intro bus delivered _
      simp [publishLoop]
  | cons sub rest ih =>
      intro bus delivered hnd
      have hnd' : sub.queue ∉ rest.map Subscriber.queue ∧
          (rest.map Subscriber.queue).Nodup := List.nodup_cons.mp hnd
      have hfresh : ∀ s ∈ rest, s.queue ≠ sub.queue := by
        intro s hs he
        exact hnd'.1 (List.mem_map.mpr ⟨s, hs, he⟩)
      cases hacc : bus.accepts skipLagging sub with
      | false =>
          obtain ⟨hcount, hsame, hput⟩ := ih bus delivered hnd'.2
          rw [publishLoop_cons_of_rejects hacc]
          refine ⟨by simpa [hacc] using hcount, ?_, ?_⟩
          · intro r hr
            exact hsame r fun s hs => hr s (by simp [hs])
          · intro s hs h
            rcases List.mem_cons.mp hs with rfl | hs
            · simp [hacc] at h
            · exact hput s hs h
      | true =>
          obtain ⟨q, hqitems, hstep⟩ := publishLoop_cons_of_accepts hacc msg rest delivered
          let bus' : InMemoryMessageBus P :=
            { bus with queues := Function.update bus.queues sub.queue q }
          have hother : ∀ s ∈ rest, bus'.queues s.queue = bus.queues s.queue := by
            intro s hs
            exact Function.update_of_ne (hfresh s hs) _ _
          have haccs : ∀ s ∈ rest, bus'.accepts skipLagging s = bus.accepts skipLagging s :=
            fun s hs => accepts_congr (hother s hs) skipLagging
          obtain ⟨hcount, hsame, hput⟩ := ih bus' (delivered + 1) hnd'.2
          rw [hstep]
          refine ⟨?_, ?_, ?_⟩
          · rw [hcount, List.countP_congr fun s hs => by rw [haccs s hs]]
            simp [hacc]
            omega
          · intro r hr
            have hne : r ≠ sub.queue := by
              intro he
              have := hr sub (by simp) he.symm
              simp [hacc] at this
            rw [hsame r fun s hs he => by rw [haccs s hs]; exact hr s (by simp [hs]) he]
            exact Function.update_of_ne hne _ _
          · intro s hs h
            rcases List.mem_cons.mp hs with rfl | hs
            · have hnone : ∀ t ∈ rest, t.queue = s.queue → bus'.accepts skipLagging t = false :=
                fun t ht he => absurd he (hfresh t ht)
              rw [hsame s.queue hnone]
              simpa [bus'] using hqitems
            · rw [hput s hs (by rw [haccs s hs]; exact h), hother s hs]

@[simp] theorem publish_channels (bus : InMemoryMessageBus P) (channel : String) (payload : P)
    (publisherId : String) (skipLagging : Bool) (now : ℚ) :
    (bus.publish channel payload publisherId skipLagging now).1.channels = bus.channels :=
  (publishLoop_frame _ skipLagging _ bus 0).1

@[simp] theorem publish_nextQueue (bus : InMemoryMessageBus P) (channel : String) (payload : P)
    (publisherId : String) (skipLagging : Bool) (now : ℚ) :
    (bus.publish channel payload publisherId skipLagging now).1.nextQueue = bus.nextQueue :=
  (publishLoop_frame _ skipLagging _ bus 0).2

end InMemoryMessageBus

end WebSocketPatterns.PubSub
