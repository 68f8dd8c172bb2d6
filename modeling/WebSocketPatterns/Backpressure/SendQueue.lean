import WebSocketPatterns.Collections.Queues
import Mathlib.Algebra.Field.Rat

/-!
# The send queue of one connection

`enqueue` and `drain` are coroutines. Each definition below runs one of them
from its start, or from the point where it was suspended, to its next
suspension or to its return: `enqueue` suspends only in `asyncio.Queue.put`,
`drain` only in `send_fn`. What a call did to the queued messages is reported
next to the new queue, since equal messages cannot be told apart afterwards.
-/

namespace WebSocketPatterns.Backpressure

/-- How to handle a full send queue. -/
inductive BackpressureStrategy
  | dropOldest
  | dropNewest
  | blockSender
  | disconnect
deriving DecidableEq

namespace BackpressureStrategy

/-- The `maxlen` of the deque. -/
def maxlen (strategy : BackpressureStrategy) (maxSize : Nat) : Option Nat :=
  if strategy = .dropOldest then some maxSize else none

/-- The `maxsize` of the `asyncio.Queue`, for the strategies that have one. -/
def asyncMaxsize (strategy : BackpressureStrategy) (maxSize : Nat) : Option Int :=
  if strategy = .blockSender ∨ strategy = .dropNewest then some maxSize else none

end BackpressureStrategy

/-- Per-connection send statistics. -/
structure SendStats where
  connectionId : String
  messagesQueued : Nat := 0
  messagesDropped : Nat := 0
  messagesSent : Nat := 0
  sendErrors : Nat := 0
  highWaterMark : Nat := 0
deriving DecidableEq

/-- Fraction of messages dropped. -/
def SendStats.dropRate (stats : SendStats) : ℚ :=
  let total := stats.messagesQueued + stats.messagesDropped
  if total = 0 then 0 else (stats.messagesDropped : ℚ) / total

/-- The send queue; its storage is always configured as its strategy asks. -/
structure SendQueue (α : Type*) where
  maxSize : Nat
  strategy : BackpressureStrategy
  queue : Deque α
  asyncQueue : Option (AsyncQueue α)
  stats : SendStats
  maxlen_eq : queue.maxlen = strategy.maxlen maxSize
  maxsize_eq : asyncQueue.map AsyncQueue.maxsize = strategy.asyncMaxsize maxSize

/-- What a run of `enqueue` up to its suspension or return did: the value it returned,
`none` while it waits in `put`; whether the message entered the queue; what it evicted. -/
structure Outcome (α : Type*) where
  queue : SendQueue α
  returned : Option Bool
  entered : Bool
  evicted : Option α

/-- The message, once if it has entered and once if its sender waits with it. -/
def Outcome.retained {α : Type*} (o : Outcome α) (message : α) : List α :=
  (if o.entered then [message] else []) ++ if o.returned.isNone then [message] else []

/-- A drain suspended in `send_fn(message)`: the iterations left and the sends counted. -/
structure Drain (α : Type*) where
  message : α
  remaining : Nat
  sent : Nat
deriving DecidableEq

/-- A drain has returned the number of messages sent, or is suspended in a send. -/
inductive DrainProgress (α : Type*)
  | returned (sent : Nat)
  | sending (drain : Drain α)

/-- The message handed to `send_fn`. -/
def DrainProgress.handed {α : Type*} : DrainProgress α → Option α
  | .returned _ => none
  | .sending drain => some drain.message

namespace SendQueue

variable {α : Type*}

/-- `SendQueue(connection_id, max_size, strategy)`. -/
def new (connectionId : String) (maxSize : Nat) (strategy : BackpressureStrategy) :
    SendQueue α where
  maxSize := maxSize
  strategy := strategy
  queue := Deque.new (strategy.maxlen maxSize)
  asyncQueue := (strategy.asyncMaxsize maxSize).map AsyncQueue.new
  stats := { connectionId := connectionId }
  maxlen_eq := rfl
  maxsize_eq := by
    rw [Option.map_map]
    cases strategy.asyncMaxsize maxSize <;> rfl

/-- Current queue depth. -/
def depth (q : SendQueue α) : Nat :=
  match q.asyncQueue with
  | some a => a.qsize
  | none => q.queue.items.length

/-- The queue has reached its maximum capacity. -/
def isFull (q : SendQueue α) : Bool := decide (q.maxSize ≤ q.depth)

/-- `await self._async_queue.put(message)`, then the count: from its start, or from the
moment a waiting put is woken and looks at the queue again. -/
def put (q : SendQueue α) (message : α) : Outcome α :=
  match ha : q.asyncQueue with
  | none =>
      { queue := { q with stats.messagesQueued := q.stats.messagesQueued + 1 }
        returned := some true
        entered := false
        evicted := none }
  | some a =>
      match hp : a.putNowait message with
      | none => { queue := q, returned := none, entered := false, evicted := none }
      | some a' =>
          { queue :=
              { q with
                asyncQueue := some a'
                stats.messagesQueued := q.stats.messagesQueued + 1
                maxsize_eq := by
                  have h := q.maxsize_eq
                  rw [ha] at h
                  rw [← h, Option.map_some, Option.map_some, AsyncQueue.putNowait_maxsize hp] }
            returned := some true
            entered := true
            evicted := none }

/-- `self.stats.high_water_mark = max(self.stats.high_water_mark, self.depth)`. -/
def markHighWater (q : SendQueue α) : SendQueue α :=
  { q with stats.highWaterMark := max q.stats.highWaterMark q.depth }

/-- Add a message to the send queue, applying the strategy if it is full. -/
def enqueue (q : SendQueue α) (message : α) : Outcome α :=
  let q := q.markHighWater
  match q.strategy with
  | .dropOldest =>
      let appended : SendQueue α := { q with queue := q.queue.append message }
      { queue :=
          if appended.queue.items.length = q.maxSize then
            { appended with stats.messagesDropped := q.stats.messagesDropped + 1 }
          else { appended with stats.messagesQueued := q.stats.messagesQueued + 1 }
        returned := some true
        entered := true
        evicted := q.queue.displaced message }
  | .dropNewest =>
      if q.asyncQueue.any fun a => decide a.full then
        { queue := { q with stats.messagesDropped := q.stats.messagesDropped + 1 }
          returned := some true
          entered := false
          evicted := none }
      else q.put message
  | .blockSender => q.put message
  | .disconnect =>
      if q.isFull then { queue := q, returned := some false, entered := false, evicted := none }
      else
        { queue :=
            { q with
              queue := q.queue.append message
              stats.messagesQueued := q.stats.messagesQueued + 1 }
          returned := some true
          entered := true
          evicted := q.queue.displaced message }

/-- `get_nowait` or `popleft`, whichever storage is in use; `none` when it is empty. -/
def pop (q : SendQueue α) : Option (α × SendQueue α) :=
  match ha : q.asyncQueue with
  | some a =>
      match hg : a.getNowait with
      | none => none
      | some (message, a') => some (message,
          { q with
            asyncQueue := some a'
            maxsize_eq := by
              have h := q.maxsize_eq
              rw [ha] at h
              rw [← h, Option.map_some, Option.map_some,
                ((AsyncQueue.getNowait_eq_some_iff _ _ _).mp hg).2] })
  | none =>
      match hp : q.queue.popleft with
      | none => none
      | some (message, d) => some (message,
          { q with
            queue := d
            maxlen_eq := ((Deque.popleft_eq_some_iff _ _ _).mp hp).2.trans q.maxlen_eq })

/-- The loop of `drain` from the head of an iteration to its `await send_fn(msg)`; messages
are dicts, so `msg is None` never holds after a pop. -/
def drainNext (q : SendQueue α) (remaining sent : Nat) : SendQueue α × DrainProgress α :=
  match remaining with
  | 0 => (q, .returned sent)
  | remaining + 1 =>
      match q.pop with
      | none => (q, .returned sent)
      | some (message, popped) => (popped, .sending ⟨message, remaining, sent⟩)

/-- `drain(send_fn, batch_size)` up to its first send. -/
def drain (q : SendQueue α) (batchSize : Int) : SendQueue α × DrainProgress α :=
  q.drainNext batchSize.toNat 0

/-- The drain goes on after its `send_fn` returned. -/
def sendReturned (q : SendQueue α) (d : Drain α) : SendQueue α × DrainProgress α :=
  drainNext { q with stats.messagesSent := q.stats.messagesSent + 1 } d.remaining (d.sent + 1)

/-- The drain goes on after its `send_fn` raised an `Exception`. -/
def sendRaised (q : SendQueue α) (d : Drain α) : SendQueue α × DrainProgress α :=
  ({ q with stats.sendErrors := q.stats.sendErrors + 1 }, .returned d.sent)

/-! ## What the steps do to the queued messages -/

/-- The queued messages, oldest first. -/
def content (q : SendQueue α) : List α :=
  match q.asyncQueue with
  | some a => a.items
  | none => q.queue.items

theorem depth_eq (q : SendQueue α) : q.depth = q.content.length := by
  unfold depth content
  split <;> rfl

theorem content_of_some {q : SendQueue α} {a : AsyncQueue α} (h : q.asyncQueue = some a) :
    q.content = a.items := by
  simp only [content, h]

theorem content_of_none {q : SendQueue α} (h : q.asyncQueue = none) :
    q.content = q.queue.items := by
  simp only [content, h]

theorem new_content (connectionId : String) (maxSize : Nat) (strategy : BackpressureStrategy) :
    (new connectionId maxSize strategy : SendQueue α).content = [] := by
  simp only [content, new]
  cases strategy.asyncMaxsize maxSize <;> rfl

/-- The asyncio queue of a `SendQueue` has its bound. -/
theorem maxsize_of_some {q : SendQueue α} {a : AsyncQueue α} (h : q.asyncQueue = some a) :
    a.maxsize = q.maxSize ∧ (q.strategy = .blockSender ∨ q.strategy = .dropNewest) := by
  have hm := q.maxsize_eq
  rw [h, Option.map_some, BackpressureStrategy.asyncMaxsize] at hm
  split at hm
  case isTrue hs => exact ⟨Option.some.inj hm, hs⟩
  case isFalse => simp at hm

theorem asyncQueue_eq_none_iff (q : SendQueue α) :
    q.asyncQueue = none ↔ q.strategy = .dropOldest ∨ q.strategy = .disconnect := by
  have hm := q.maxsize_eq
  cases hq : q.asyncQueue with
  | none =>
      rw [hq, Option.map_none, BackpressureStrategy.asyncMaxsize] at hm
      cases hs : q.strategy <;> simp [hs] at hm ⊢
  | some a =>
      obtain ⟨_, hs⟩ := maxsize_of_some hq
      rcases hs with hs | hs <;> simp [hs]

/-- The three things a call of `enqueue` or a woken `put` can do to the queued messages. -/
inductive Effect (q : SendQueue α) (message : α) (o : Outcome α) : Prop
  | kept (entered : o.entered = false) (evicted : o.evicted = none)
      (content : o.queue.content = q.content)
  | added (entered : o.entered = true) (evicted : o.evicted = none)
      (room : 0 < q.maxSize → q.content.length < q.maxSize)
      (content : o.queue.content = q.content ++ [message])
  | displaced (oldest : α) (entered : o.entered = true) (evicted : o.evicted = some oldest)
      (dropOldest : q.strategy = .dropOldest) (full : q.content.length = q.maxSize)
      (content : oldest :: o.queue.content = q.content ++ [message])

/-- The full queue of an eviction begins with the message evicted. -/
theorem exists_rest_of_full {q : SendQueue α} (hmax : 0 < q.maxSize)
    (full : q.content.length = q.maxSize) {oldest message : α} {items : List α}
    (content : oldest :: items = q.content ++ [message]) :
    ∃ rest, q.content = oldest :: rest ∧ items = rest ++ [message] := by
  cases hq : q.content with
  | nil =>
      rw [hq] at full
      exact absurd full.symm hmax.ne'
  | cons x rest =>
      rw [hq] at content
      obtain ⟨rfl, hrest⟩ := List.cons.inj content
      exact ⟨rest, rfl, hrest⟩

theorem put_effect (q : SendQueue α) (message : α) : q.Effect message (q.put message) := by
  unfold put
  split
  case h_1 ha => exact .kept rfl rfl rfl
  case h_2 a ha =>
    split
    case h_1 => exact .kept rfl rfl rfl
    case h_2 a' hp =>
      obtain ⟨hroom, _, hitems⟩ := (AsyncQueue.putNowait_eq_some_iff _ _ _).mp hp
      have hmax := (maxsize_of_some ha).1
      refine .added rfl rfl ?_ ?_
      · intro hpos
        have hlt : ¬ a.maxsize ≤ a.items.length := by
          intro hle
          apply hroom
          exact ⟨by omega, hle⟩
        rw [content_of_some ha]
        omega
      · rw [content_of_some ha]
        exact hitems

/-- Appending to the deque of a strategy without an asyncio queue. -/
theorem append_effect (q : SendQueue α) (message : α) (o : Outcome α)
    (ha : q.asyncQueue = none) (entered : o.entered = true)
    (evicted : o.evicted = q.queue.displaced message)
    (hcontent : o.queue.content = (q.queue.append message).items)
    (hroom : q.strategy = .disconnect → q.content.length < q.maxSize) :
    q.Effect message o := by
  have hq := content_of_none ha
  have hmax := q.maxlen_eq
  have happend := q.queue.displaced_append message
  by_cases hfull : q.queue.atMaxlen
  · -- at the bound: the deque is that of DROP_OLDEST
    have hold : q.strategy = .dropOldest := by
      by_contra hne
      rw [BackpressureStrategy.maxlen, if_neg hne] at hmax
      rw [Deque.atMaxlen, hmax] at hfull
      simp at hfull
    obtain ⟨oldest, hout⟩ : ∃ oldest, q.queue.displaced message = some oldest := by
      rw [Deque.displaced, if_pos hfull]
      cases q.queue.items <;> simp
    refine .displaced oldest entered (evicted.trans hout) hold ?_ ?_
    · rw [BackpressureStrategy.maxlen, if_pos hold] at hmax
      rw [hq]
      exact (Option.some.inj (hmax.symm.trans hfull)).symm
    · rw [hcontent, hq, ← happend, hout]
      rfl
  · have hout : q.queue.displaced message = none := if_neg hfull
    refine .added entered (evicted.trans hout) ?_ ?_
    · intro _
      rcases (asyncQueue_eq_none_iff q).mp ha with hold | hdis
      · rw [BackpressureStrategy.maxlen, if_pos hold] at hmax
        have hle := q.queue.bounded _ hmax
        have hne : q.queue.items.length ≠ q.maxSize := by
          intro he
          exact hfull (hmax.trans (congrArg some he.symm))
        rw [hq]
        omega
      · exact hroom hdis
    · rw [hcontent, hq, ← happend, hout]
      rfl

@[simp] theorem markHighWater_strategy (q : SendQueue α) :
    q.markHighWater.strategy = q.strategy := rfl

@[simp] theorem markHighWater_asyncQueue (q : SendQueue α) :
    q.markHighWater.asyncQueue = q.asyncQueue := rfl

/-- Taking the high water mark moves no message. -/
theorem Effect.of_markHighWater {q : SendQueue α} {message : α} {o : Outcome α}
    (h : q.markHighWater.Effect message o) : q.Effect message o := by
  cases h with
  | kept entered evicted content => exact .kept entered evicted content
  | added entered evicted room content => exact .added entered evicted room content
  | displaced oldest entered evicted dropOldest full content =>
      exact .displaced oldest entered evicted dropOldest full content

theorem enqueue_effect (q : SendQueue α) (message : α) :
    q.Effect message (q.enqueue message) := by
  apply Effect.of_markHighWater
  cases hs : q.strategy with
  | dropOldest =>
      have ha := (asyncQueue_eq_none_iff q).mpr (Or.inl hs)
      simp only [enqueue, markHighWater_strategy, hs]
      apply append_effect q.markHighWater message _ ha rfl rfl
      · split <;> simp [content, ha]
      · simp [hs]
  | dropNewest =>
      simp only [enqueue, markHighWater_strategy, hs]
      split
      · exact .kept rfl rfl rfl
      · exact put_effect _ message
  | blockSender =>
      simp only [enqueue, markHighWater_strategy, hs]
      exact put_effect _ message
  | disconnect =>
      have ha := (asyncQueue_eq_none_iff q).mpr (Or.inr hs)
      simp only [enqueue, markHighWater_strategy, hs]
      split
      · exact .kept rfl rfl rfl
      case isFalse hfull =>
        apply append_effect q.markHighWater message _ ha rfl rfl
        · simp [content, ha]
        · intro _
          have hlt : ¬ q.markHighWater.maxSize ≤ q.markHighWater.depth := by
            intro hle
            exact hfull (decide_eq_true hle)
          rw [← depth_eq]
          omega

/-! ## Configuration and counters -/

/-- The queue keeps its configuration, and no send is counted. -/
structure Frame (q r : SendQueue α) : Prop where
  strategy : r.strategy = q.strategy
  maxSize : r.maxSize = q.maxSize
  messagesSent : r.stats.messagesSent = q.stats.messagesSent
  sendErrors : r.stats.sendErrors = q.stats.sendErrors

theorem put_frame (q : SendQueue α) (message : α) : q.Frame (q.put message).queue := by
  unfold put
  split
  · exact ⟨rfl, rfl, rfl, rfl⟩
  · split <;> exact ⟨rfl, rfl, rfl, rfl⟩

theorem enqueue_frame (q : SendQueue α) (message : α) : q.Frame (q.enqueue message).queue := by
  obtain ⟨hstrategy, hmax, hsent, herrors⟩ := put_frame q.markHighWater message
  have hput : q.Frame (q.markHighWater.put message).queue := ⟨hstrategy, hmax, hsent, herrors⟩
  unfold enqueue
  dsimp only
  split
  · split <;> exact ⟨rfl, rfl, rfl, rfl⟩
  · split
    · exact ⟨rfl, rfl, rfl, rfl⟩
    · exact hput
  · exact hput
  · split <;> exact ⟨rfl, rfl, rfl, rfl⟩

theorem put_retained_sublist (q : SendQueue α) (message : α) :
    ((q.put message).retained message).Sublist [message] := by
  unfold put
  split
  · exact List.nil_sublist _
  · split <;> exact List.Sublist.refl _

theorem put_retained {q : SendQueue α} (h : q.asyncQueue ≠ none) (message : α) :
    (q.put message).retained message = [message] := by
  unfold put
  split
  case h_1 ha => exact absurd ha h
  case h_2 => split <;> rfl

theorem enqueue_retained_sublist (q : SendQueue α) (message : α) :
    ((q.enqueue message).retained message).Sublist [message] := by
  unfold enqueue
  dsimp only
  split
  · exact List.Sublist.refl _
  · split
    · exact List.nil_sublist _
    · exact put_retained_sublist _ message
  · exact put_retained_sublist _ message
  · split
    · exact List.nil_sublist _
    · exact List.Sublist.refl _

theorem asyncQueue_ne_none {q : SendQueue α} (h : q.strategy = .blockSender) :
    q.asyncQueue ≠ none := by
  intro ha
  simpa [h] using (asyncQueue_eq_none_iff q).mp ha

/-- A blocking sender's message is in the queue or its sender waits with it. -/
theorem enqueue_retained {q : SendQueue α} (h : q.strategy = .blockSender) (message : α) :
    (q.enqueue message).retained message = [message] := by
  have hput : (q.markHighWater.put message).retained message = [message] :=
    put_retained (asyncQueue_ne_none (q := q.markHighWater) h) message
  simpa only [enqueue, markHighWater_strategy, h] using hput

/-- A put on storage with room counts its message and returns. -/
theorem put_of_room {q : SendQueue α} {a : AsyncQueue α} (ha : q.asyncQueue = some a)
    (hroom : ¬ a.full) (message : α) :
    (q.put message).returned = some true ∧ (q.put message).entered = true ∧
      (q.put message).queue.stats.messagesQueued = q.stats.messagesQueued + 1 ∧
      (q.put message).queue.stats.messagesDropped = q.stats.messagesDropped := by
  unfold put
  split
  case h_1 hnone => simp [ha] at hnone
  case h_2 b hb =>
    obtain rfl := Option.some.inj (ha.symm.trans hb)
    split
    case h_1 hp => exact absurd ((AsyncQueue.putNowait_eq_none_iff a message).mp hp) hroom
    case h_2 => exact ⟨rfl, rfl, rfl, rfl⟩

/-- Under DROP_OLDEST every call returns at once and its message enters; the drop counter
goes up when the queue is full after the append. -/
theorem enqueue_dropOldest {q : SendQueue α} (h : q.strategy = .dropOldest) (message : α) :
    (q.enqueue message).returned = some true ∧ (q.enqueue message).entered = true ∧
      (q.enqueue message).queue.stats.messagesDropped = q.stats.messagesDropped +
        if (q.enqueue message).queue.content.length = q.maxSize then 1 else 0 := by
  have ha := (asyncQueue_eq_none_iff q).mpr (Or.inl h)
  simp only [enqueue, markHighWater_strategy, h, true_and]
  split
  case isTrue hlen =>
    simp only [content, markHighWater_asyncQueue, ha]
    exact congrArg (q.stats.messagesDropped + ·) (if_pos hlen).symm
  case isFalse hlen =>
    simp only [content, markHighWater_asyncQueue, ha]
    change q.stats.messagesDropped + 0 = _
    exact congrArg (q.stats.messagesDropped + ·) (if_neg hlen).symm

/-- One iteration of the drain loop takes the oldest message and changes nothing else. -/
theorem pop_eq_some {q r : SendQueue α} {message : α} (h : q.pop = some (message, r)) :
    q.content = message :: r.content ∧ r.strategy = q.strategy ∧ r.maxSize = q.maxSize ∧
      r.stats = q.stats := by
  unfold pop at h
  split at h
  case h_1 a ha =>
    split at h
    case h_1 => simp at h
    case h_2 got a' hg =>
      obtain ⟨rfl, rfl⟩ := Prod.mk.inj (Option.some.inj h)
      rw [content_of_some ha]
      exact ⟨((AsyncQueue.getNowait_eq_some_iff _ _ _).mp hg).1, rfl, rfl, rfl⟩
  case h_2 ha =>
    split at h
    case h_1 => simp at h
    case h_2 got d hp =>
      obtain ⟨rfl, rfl⟩ := Prod.mk.inj (Option.some.inj h)
      rw [content_of_none ha]
      refine ⟨?_, rfl, rfl, rfl⟩
      simpa [content, ha] using ((Deque.popleft_eq_some_iff _ _ _).mp hp).1

/-- What a drain does between two suspensions. -/
theorem drainNext_spec (q : SendQueue α) (remaining sent : Nat) :
    let result := q.drainNext remaining sent
    result.2.handed.toList ++ result.1.content = q.content ∧
      result.1.strategy = q.strategy ∧ result.1.maxSize = q.maxSize ∧
      result.1.stats = q.stats := by
  cases remaining with
  | zero => exact ⟨rfl, rfl, rfl, rfl⟩
  | succ remaining =>
      cases hp : q.pop with
      | none => simp [drainNext, hp, DrainProgress.handed]
      | some popped =>
          obtain ⟨hcontent, hrest⟩ := pop_eq_some hp
          simpa [drainNext, hp, DrainProgress.handed] using ⟨hcontent.symm, hrest⟩

end SendQueue

end WebSocketPatterns.Backpressure
