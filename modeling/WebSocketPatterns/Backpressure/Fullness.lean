import WebSocketPatterns.Backpressure.HighWater

/-!
# The two measures of fullness

`is_full` compares the depth with `max_size`, while a call of `enqueue` asks the
storage: the deque evicts at its `maxlen`, `asyncio.Queue` waits at its
`maxsize`, and only DISCONNECT asks `is_full`. An `asyncio.Queue` without room
for a single message is an unbounded one, and there the two measures part.
-/

namespace WebSocketPatterns.Backpressure

open Transition

variable {α : Type*}

namespace SendQueue

/-- What `is_full` promises of the next call of `enqueue`: a full queue gets no deeper, and a
queue that is not full takes the message without waiting. -/
structure FullnessAgrees (q : SendQueue α) (message : α) : Prop where
  full : q.isFull = true → (q.enqueue message).queue.depth ≤ q.depth
  room : q.isFull = false → (q.enqueue message).returned.isSome ∧
    (q.enqueue message).queue.depth = q.depth + 1

theorem isFull_iff (q : SendQueue α) : q.isFull = true ↔ q.maxSize ≤ q.depth :=
  decide_eq_true_iff

theorem not_isFull_iff (q : SendQueue α) : q.isFull = false ↔ q.depth < q.maxSize := by
  rw [isFull, decide_eq_false_iff_not, not_le]

/-- The deque of DROP_OLDEST never exceeds the bound. -/
theorem depth_le_maxSize {q : SendQueue α} (h : q.strategy = .dropOldest) :
    q.depth ≤ q.maxSize := by
  have ha := (asyncQueue_eq_none_iff q).mpr (Or.inl h)
  rw [depth_eq, content_of_none ha]
  apply q.queue.bounded
  rw [q.maxlen_eq, BackpressureStrategy.maxlen, if_pos h]

/-- A message that has entered is not waited with. -/
theorem enqueue_returned {q : SendQueue α} {message : α}
    (entered : (q.enqueue message).entered = true) :
    (q.enqueue message).returned.isSome := by
  have hsublist := q.enqueue_retained_sublist message
  cases hr : (q.enqueue message).returned with
  | none =>
      have hlength := hsublist.length_le
      simp [Outcome.retained, entered, hr] at hlength
  | some returned => rfl

/-- With room the message is appended, and its call returns. -/
theorem enqueue_of_room {q : SendQueue α} (hroom : q.depth < q.maxSize) (message : α) :
    (q.enqueue message).returned.isSome ∧ (q.enqueue message).queue.depth = q.depth + 1 := by
  have hentered : (q.enqueue message).entered = true := by
    apply enqueue_entered
    rwa [← depth_eq]
  exact ⟨enqueue_returned hentered, enqueue_depth_of_entered hentered fun _ => hroom.ne⟩

/-- A full queue with a positive bound keeps its depth, whatever the strategy. -/
theorem enqueue_of_full {q : SendQueue α} (hmax : 0 < q.maxSize) (hfull : q.maxSize ≤ q.depth)
    (message : α) : (q.enqueue message).queue.depth = q.depth := by
  rw [depth_eq] at hfull
  rw [depth_eq, depth_eq]
  cases q.enqueue_effect message with
  | kept _ _ content => rw [content]
  | added _ _ room _ => exact absurd (room hmax) (not_lt.mpr hfull)
  | displaced oldest _ _ _ _ content =>
      have hlength := congrArg List.length content
      simpa using hlength

/-- DISCONNECT refuses what a full queue is offered. -/
theorem enqueue_disconnect {q : SendQueue α} (h : q.strategy = .disconnect)
    (hfull : q.isFull = true) (message : α) :
    (q.enqueue message).queue.depth = q.depth := by
  have hmarked : q.markHighWater.isFull = true := hfull
  simp only [enqueue, markHighWater_strategy, h, hmarked, if_true]
  rfl

/-- An asyncio queue of size zero has no bound, so that every message enters. -/
theorem enqueue_of_unbounded {q : SendQueue α} {a : AsyncQueue α} (ha : q.asyncQueue = some a)
    (hmax : q.maxSize = 0) (message : α) : (q.enqueue message).queue.depth = q.depth + 1 := by
  have hunbounded : ¬ a.full := by
    rintro ⟨hpos, _⟩
    rw [(maxsize_of_some ha).1, hmax] at hpos
    exact absurd hpos (lt_irrefl _)
  apply enqueue_depth_of_entered (enqueue_entered_of_not_full ha hunbounded message)
  intro hold
  rcases (maxsize_of_some ha).2 with hs | hs <;> simp [hs] at hold

/-- The measures agree exactly where the bound is positive or no asyncio queue is in use. -/
theorem fullnessAgrees_iff (q : SendQueue α) (message : α) :
    q.FullnessAgrees message ↔
      0 < q.maxSize ∨ q.strategy = .dropOldest ∨ q.strategy = .disconnect := by
  rw [← asyncQueue_eq_none_iff]
  constructor
  · intro hagrees
    by_contra! hnone
    obtain ⟨hmax, ha⟩ := hnone
    obtain ⟨a, ha⟩ := Option.ne_none_iff_exists'.mp ha
    have hzero : q.maxSize = 0 := by omega
    have hdeeper := enqueue_of_unbounded ha hzero message
    have hsame := hagrees.full ((isFull_iff q).mpr (by omega))
    omega
  · intro hcase
    refine ⟨fun hfull => ?_, fun hroom => enqueue_of_room ((not_isFull_iff q).mp hroom) message⟩
    rcases hcase with hmax | ha
    · exact (enqueue_of_full hmax ((isFull_iff q).mp hfull) message).le
    · rcases (asyncQueue_eq_none_iff q).mp ha with hs | hs
      · have frame := enqueue_frame q message
        have hbound := depth_le_maxSize (frame.strategy.trans hs)
        rw [frame.maxSize] at hbound
        exact hbound.trans ((isFull_iff q).mp hfull)
      · exact (enqueue_disconnect hs hfull message).le

end SendQueue

namespace SendSystem

/-- In every reachable state `is_full` agrees with `enqueue` if and only if the bound is positive
or the strategy stores its messages in the deque. -/
theorem fullness_agrees_iff {connectionId : String} {maxSize : Nat}
    {strategy : BackpressureStrategy} {acts : List (SendAction α)} {σ : SendSystem α}
    (run : Run step (start connectionId maxSize strategy) acts σ) (message : α) :
    σ.queue.FullnessAgrees message ↔
      0 < maxSize ∨ strategy = .dropOldest ∨ strategy = .disconnect := by
  obtain ⟨hstrategy, hmax⟩ := config_of_run run
  rw [SendQueue.fullnessAgrees_iff, hstrategy, hmax]

/-- A queue of one is full, its next sender waits, and the depth stays. -/
theorem fullness_agrees_blocking :
    ∃ σ : SendSystem Nat, Run step (start "c" 1 .blockSender) [.enqueue 0 7] σ ∧
      σ.queue.isFull = true ∧ σ.queue.FullnessAgrees 8 := by
  have run := run_get
    (show (exec step (start "c" 1 .blockSender) [SendAction.enqueue 0 7]).isSome from by decide)
  exact ⟨_, run, by decide, (fullness_agrees_iff run 8).mpr (Or.inl (by decide))⟩

/-- A queue of zero is full before anybody calls, and takes the message all the same. -/
theorem zero_bound_grows :
    ∃ σ : SendSystem Nat, Run step (start "c" 0 .blockSender) [] σ ∧
      (∀ sender, σ.waiting sender = none) ∧ σ.drains = [] ∧ σ.queue.isFull = true ∧
      (σ.queue.enqueue 7).returned = some true ∧ (σ.queue.enqueue 7).queue.depth = 1 ∧
      ¬ σ.queue.FullnessAgrees 7 := by
  refine ⟨_, Run.nil, fun _ => rfl, rfl, by decide, by decide, by decide, ?_⟩
  intro hagrees
  exact absurd (hagrees.full (by decide)) (by decide)

end SendSystem

end WebSocketPatterns.Backpressure
