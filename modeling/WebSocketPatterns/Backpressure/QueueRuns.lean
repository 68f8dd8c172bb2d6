import WebSocketPatterns.Backpressure.SendQueue
import WebSocketPatterns.Collections.BoundedFifo
import WebSocketPatterns.Transition.Run
import Mathlib.Logic.Function.Basic

/-!
# Interleaved calls on one send queue

Between two await points a call runs alone, so a state holds the queue, the
senders waiting in `put`, and the drains suspended in `send_fn`, and an action
runs one call to its next suspension. A sender awaits each of its `enqueue`
calls before the next; calls that do not wait for each other are calls of
different senders. A waiting sender may be woken in any order and looks at the
queue again. The last four fields record the run and are read by no code.
-/

namespace WebSocketPatterns.Backpressure

/-- A send queue with the calls in progress and the record of the run. -/
structure SendSystem (α : Type*) where
  queue : SendQueue α
  waiting : Nat → Option α
  drains : List (Drain α)
  offered : List (Nat × α)
  entered : List (Nat × α)
  departed : List (Departure α)
  returnedSends : Nat

/-- An `enqueue` call, the wake-up or cancellation of a waiting one, a `drain` call, and the
end of the send in which the listed drain is suspended. -/
inductive SendAction (α : Type*)
  | enqueue (sender : Nat) (message : α)
  | wake (sender : Nat)
  | cancel (sender : Nat)
  | drain (batchSize : Int)
  | sendReturned (drain : Nat)
  | sendRaised (drain : Nat)

namespace SendSystem

variable {α : Type*}

/-- A new send queue without callers. -/
def start (connectionId : String) (maxSize : Nat) (strategy : BackpressureStrategy) :
    SendSystem α where
  queue := SendQueue.new connectionId maxSize strategy
  waiting := fun _ => none
  drains := []
  offered := []
  entered := []
  departed := []
  returnedSends := 0

/-- The messages handed to `send_fn`, in the order of its calls. -/
def handed (σ : SendSystem α) : List α := σ.departed.filterMap Departure.taken?

/-- The evicted messages, in the order of their eviction. -/
def evicted (σ : SendSystem α) : List α := σ.departed.filterMap Departure.evicted?

/-- A sender's `put` has run: it has returned, or the sender waits with its message. -/
def settle (σ : SendSystem α) (sender : Nat) (message : α) (o : Outcome α) : SendSystem α :=
  { σ with
    queue := o.queue
    waiting := Function.update σ.waiting sender (if o.returned.isNone then some message else none)
    entered := σ.entered ++ if o.entered then [(sender, message)] else []
    departed := σ.departed ++ (o.evicted.map Departure.evicted).toList }

/-- A drain has run, the other drains being suspended: it has returned its count, or it is
suspended in the next send. -/
def advance (σ : SendSystem α) (others : List (Drain α))
    (result : SendQueue α × DrainProgress α) : SendSystem α :=
  match result.2 with
  | .returned sent =>
      { σ with
        queue := result.1
        drains := others
        returnedSends := σ.returnedSends + sent }
  | .sending d =>
      { σ with
        queue := result.1
        drains := others ++ [d]
        departed := σ.departed ++ [.taken d.message] }

/-- One action; `none` when its caller is not where the action needs it to be. -/
def step (σ : SendSystem α) : SendAction α → Option (SendSystem α)
  | .enqueue sender message =>
      match σ.waiting sender with
      | some _ => none
      | none =>
          some <| settle { σ with offered := σ.offered ++ [(sender, message)] } sender message
            (σ.queue.enqueue message)
  | .wake sender =>
      (σ.waiting sender).map fun message => σ.settle sender message (σ.queue.put message)
  | .cancel sender =>
      (σ.waiting sender).map fun _ =>
        { σ with waiting := Function.update σ.waiting sender none }
  | .drain batchSize => some (σ.advance σ.drains (σ.queue.drain batchSize))
  | .sendReturned i =>
      (σ.drains[i]?).map fun d => σ.advance (σ.drains.eraseIdx i) (σ.queue.sendReturned d)
  | .sendRaised i =>
      (σ.drains[i]?).map fun d => σ.advance (σ.drains.eraseIdx i) (σ.queue.sendRaised d)

/-! ## Frames and counters -/

@[simp] theorem settle_queue (σ : SendSystem α) (sender : Nat) (message : α) (o : Outcome α) :
    (σ.settle sender message o).queue = o.queue := rfl

@[simp] theorem advance_queue (σ : SendSystem α) (others : List (Drain α))
    (result : SendQueue α × DrainProgress α) : (σ.advance others result).queue = result.1 := by
  unfold advance
  split <;> rfl

/-- A drain leaves the record of the senders alone. -/
theorem advance_senders (σ : SendSystem α) (others : List (Drain α))
    (result : SendQueue α × DrainProgress α) :
    (σ.advance others result).waiting = σ.waiting ∧
      (σ.advance others result).offered = σ.offered ∧
      (σ.advance others result).entered = σ.entered := by
  unfold advance
  split <;> exact ⟨rfl, rfl, rfl⟩

/-- A drain evicts nothing. -/
theorem advance_evicted (σ : SendSystem α) (others : List (Drain α))
    (result : SendQueue α × DrainProgress α) :
    (σ.advance others result).evicted = σ.evicted := by
  unfold advance
  split
  · rfl
  · simp [evicted, Departure.evicted?]

/-- A call of `enqueue` or a wake-up hands nothing to `send_fn`. -/
theorem settle_handed (σ : SendSystem α) (sender : Nat) (message : α) (o : Outcome α) :
    (σ.settle sender message o).handed = σ.handed := by
  cases h : o.evicted <;> simp [handed, settle, h, Departure.taken?]

theorem settle_evicted (σ : SendSystem α) (sender : Nat) (message : α) (o : Outcome α) :
    (σ.settle sender message o).evicted = σ.evicted ++ o.evicted.toList := by
  cases h : o.evicted <;> simp [evicted, settle, h, Departure.evicted?]

/-- The sends begun, one for each drain in flight and each counted success or failure. -/
def attempts (σ : SendSystem α) : Nat :=
  σ.queue.stats.messagesSent + σ.queue.stats.sendErrors + σ.drains.length

/-- Everything an action can do. A drain action runs a drain from the head of an iteration, on
a queue that differs from the present one at most in the counters of the send just ended. -/
inductive Stepped (σ : SendSystem α) : SendAction α → SendSystem α → Prop
  | enqueue (sender : Nat) (message : α) (free : σ.waiting sender = none) :
      Stepped σ (.enqueue sender message)
        (settle { σ with offered := σ.offered ++ [(sender, message)] } sender message
          (σ.queue.enqueue message))
  | wake (sender : Nat) (message : α) (waits : σ.waiting sender = some message) :
      Stepped σ (.wake sender) (σ.settle sender message (σ.queue.put message))
  | cancel (sender : Nat) (message : α) (waits : σ.waiting sender = some message) :
      Stepped σ (.cancel sender) { σ with waiting := Function.update σ.waiting sender none }
  | drained {a : SendAction α} (others : List (Drain α)) (q : SendQueue α)
      (remaining sent : Nat) (serves : ∀ sender message, a ≠ .enqueue sender message)
      (same : q = { σ.queue with stats := q.stats })
      (dropped : q.stats.messagesDropped = σ.queue.stats.messagesDropped)
      (ended : q.stats.messagesSent + q.stats.sendErrors + others.length = σ.attempts) :
      Stepped σ a (σ.advance others (q.drainNext remaining sent))

theorem stepped {σ τ : SendSystem α} {a : SendAction α} (h : σ.step a = some τ) :
    σ.Stepped a τ := by
  cases a with
  | enqueue sender message =>
      simp only [step] at h
      split at h
      · simp at h
      · rename_i free
        obtain rfl := Option.some.inj h
        exact .enqueue sender message free
  | wake sender =>
      obtain ⟨message, waits, rfl⟩ := Option.map_eq_some_iff.mp h
      exact .wake sender message waits
  | cancel sender =>
      obtain ⟨message, waits, rfl⟩ := Option.map_eq_some_iff.mp h
      exact .cancel sender message waits
  | drain batchSize =>
      obtain rfl := Option.some.inj h
      exact .drained σ.drains σ.queue batchSize.toNat 0 (by simp) rfl rfl rfl
  | sendReturned i =>
      obtain ⟨d, hd, rfl⟩ := Option.map_eq_some_iff.mp h
      have hi : i < σ.drains.length := (List.getElem?_eq_some_iff.mp hd).1
      refine Stepped.drained (σ.drains.eraseIdx i)
        { σ.queue with stats.messagesSent := σ.queue.stats.messagesSent + 1 } d.remaining
        (d.sent + 1) (by simp) rfl rfl ?_
      rw [attempts, List.length_eraseIdx_of_lt hi]
      dsimp only
      omega
  | sendRaised i =>
      obtain ⟨d, hd, rfl⟩ := Option.map_eq_some_iff.mp h
      have hi : i < σ.drains.length := (List.getElem?_eq_some_iff.mp hd).1
      refine Stepped.drained (σ.drains.eraseIdx i)
        { σ.queue with stats.sendErrors := σ.queue.stats.sendErrors + 1 } 0 d.sent
        (by simp) rfl rfl ?_
      rw [attempts, List.length_eraseIdx_of_lt hi]
      dsimp only
      omega

/-- What a drain did to the queue it was run on. -/
theorem Stepped.drained_content {σ : SendSystem α} {q : SendQueue α}
    (same : q = { σ.queue with stats := q.stats }) (remaining sent : Nat) :
    (q.drainNext remaining sent).2.handed.toList ++ (q.drainNext remaining sent).1.content =
        σ.queue.content ∧
      (q.drainNext remaining sent).1.strategy = σ.queue.strategy ∧
      (q.drainNext remaining sent).1.maxSize = σ.queue.maxSize ∧
      (q.drainNext remaining sent).1.stats = q.stats := by
  obtain ⟨hcontent, hstrategy, hmax, hstats⟩ := SendQueue.drainNext_spec q remaining sent
  rw [hcontent, hstrategy, hmax, hstats]
  rw [same]
  exact ⟨rfl, rfl, rfl, rfl⟩

/-- Between two suspensions a drain changes no counter. -/
theorem advance_stats (σ : SendSystem α) (others : List (Drain α)) (q : SendQueue α)
    (remaining sent : Nat) :
    (σ.advance others (q.drainNext remaining sent)).queue.stats = q.stats := by
  rw [advance_queue]
  exact (SendQueue.drainNext_spec q remaining sent).2.2.2

/-- A drain that has run begins a send for each message it hands over. -/
theorem advance_attempts {σ : SendSystem α} {q : SendQueue α} (others : List (Drain α))
    (remaining sent : Nat)
    (h : q.stats.messagesSent + q.stats.sendErrors + others.length = σ.handed.length) :
    (σ.advance others (q.drainNext remaining sent)).attempts =
      (σ.advance others (q.drainNext remaining sent)).handed.length := by
  have hstats := (SendQueue.drainNext_spec q remaining sent).2.2.2
  cases hr : q.drainNext remaining sent with
  | mk r progress =>
      rw [hr] at hstats
      change r.stats = q.stats at hstats
      rw [← hstats] at h
      cases progress with
      | returned n => exact h
      | sending d =>
          simp only [advance, attempts, handed, List.length_append, List.filterMap_append,
            List.length_singleton]
          simpa [Departure.taken?, handed, ← Nat.add_assoc] using h

section Steps

variable {σ τ : SendSystem α} {a : SendAction α} (h : σ.step a = some τ)
include h

/-- No action changes the configuration of the queue. -/
theorem step_config :
    τ.queue.strategy = σ.queue.strategy ∧ τ.queue.maxSize = σ.queue.maxSize := by
  cases stepped h with
  | enqueue sender message _ =>
      have frame := SendQueue.enqueue_frame σ.queue message
      exact ⟨frame.strategy, frame.maxSize⟩
  | wake sender message _ =>
      have frame := SendQueue.put_frame σ.queue message
      exact ⟨frame.strategy, frame.maxSize⟩
  | cancel sender message _ => exact ⟨rfl, rfl⟩
  | drained others q remaining sent _ same _ _ =>
      obtain ⟨_, hs, hm, _⟩ := Stepped.drained_content same remaining sent
      rw [advance_queue]
      exact ⟨hs, hm⟩

/-- Every message handed to `send_fn` was sent, failed, or is in flight. -/
theorem step_attempts (hσ : σ.attempts = σ.handed.length) : τ.attempts = τ.handed.length := by
  have hsettle : ∀ (σ' : SendSystem α) (sender : Nat) (message : α) (o : Outcome α),
      σ'.handed = σ.handed → σ'.drains = σ.drains → σ.queue.Frame o.queue →
      (σ'.settle sender message o).attempts = (σ'.settle sender message o).handed.length := by
    intro σ' sender message o hhanded hdrains frame
    rw [settle_handed, hhanded, ← hσ]
    simp only [attempts, settle, hdrains, frame.messagesSent, frame.sendErrors]
  cases stepped h with
  | enqueue sender message _ =>
      apply hsettle
      · rfl
      · rfl
      · exact SendQueue.enqueue_frame σ.queue message
  | wake sender message _ =>
      apply hsettle
      · rfl
      · rfl
      · exact SendQueue.put_frame σ.queue message
  | cancel sender message _ => exact hσ
  | drained others q remaining sent _ _ _ ended =>
      exact advance_attempts others remaining sent (ended.trans hσ)

end Steps

section Runs

variable {connectionId : String} {maxSize : Nat} {strategy : BackpressureStrategy}
  {acts : List (SendAction α)} {σ : SendSystem α}
  (run : Transition.Run step (start connectionId maxSize strategy) acts σ)
include run

theorem config_of_run : σ.queue.strategy = strategy ∧ σ.queue.maxSize = maxSize := by
  induction run with
  | nil => exact ⟨rfl, rfl⟩
  | snoc _ h ih =>
      obtain ⟨hs, hm⟩ := step_config h
      exact ⟨hs.trans ih.1, hm.trans ih.2⟩

theorem attempts_of_run : σ.attempts = σ.handed.length := by
  induction run with
  | nil => rfl
  | snoc _ h ih => exact step_attempts h ih

end Runs

end SendSystem

end WebSocketPatterns.Backpressure
