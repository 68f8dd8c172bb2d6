import WebSocketPatterns.Backpressure.Refinement
import Mathlib.Algebra.Order.Field.Rat

/-!
# The drop counter of DROP_OLDEST

`enqueue` counts a drop when the deque has `max_size` messages after the
append. That is so after an eviction, but also after the append that fills the
deque and evicts nothing, so the counter is right exactly as long as no message
is offered to a queue with one place left.
-/

namespace WebSocketPatterns.Backpressure.SendSystem

open Transition

variable {α : Type*}

/-- The counters tell what happened to the messages offered so far. -/
structure AccountsForDrops (σ : SendSystem α) : Prop where
  dropped : σ.queue.stats.messagesDropped = σ.evicted.length
  balance : σ.offered.length = σ.queue.stats.messagesDropped + σ.queue.stats.messagesSent +
    σ.queue.stats.sendErrors + σ.queue.depth + σ.drains.length
  delivered : σ.queue.stats.messagesSent = σ.offered.length → σ.queue.stats.dropRate = 0

/-- The action offers no message to a queue with exactly one place left. -/
def OffersBeforeLastPlace (σ : SendSystem α) : SendAction α → Prop
  | .enqueue _ _ => σ.queue.depth + 1 ≠ σ.queue.maxSize
  | _ => True

instance (σ : SendSystem α) (a : SendAction α) : Decidable (σ.OffersBeforeLastPlace a) := by
  cases a <;> unfold OffersBeforeLastPlace <;> infer_instance

/-- The drop counter agrees with the evictions. -/
def CountsEvictions (σ : SendSystem α) : Prop :=
  σ.queue.stats.messagesDropped = σ.evicted.length

section Steps

variable {σ τ : SendSystem α} {a : SendAction α} (hstrategy : σ.queue.strategy = .dropOldest)
  (hwaiting : ∀ s, σ.waiting s = none) (h : σ.step a = some τ)
include hstrategy hwaiting h

/-- Under DROP_OLDEST no sender waits, and every offered message enters. -/
theorem step_dropOldest (hoffered : σ.offered.length = σ.entered.length) :
    (∀ s, τ.waiting s = none) ∧ τ.offered.length = τ.entered.length := by
  cases stepped h with
  | enqueue sender message _ =>
      obtain ⟨hreturned, hentered, _⟩ := SendQueue.enqueue_dropOldest hstrategy message
      constructor
      · intro s
        by_cases hs : s = sender
        · simp [settle, hreturned, hs]
        · simp [settle, hs, hwaiting]
      · simp [settle, hentered, hoffered]
  | wake sender message waits => simp [hwaiting] at waits
  | cancel sender message waits => simp [hwaiting] at waits
  | drained others q remaining sent _ _ _ _ =>
      obtain ⟨hw, ho, he⟩ := advance_senders σ others (q.drainNext remaining sent)
      rw [hw, ho, he]
      exact ⟨hwaiting, hoffered⟩

/-- Where the counter was right, it stays right unless the append fills the queue. -/
theorem step_countsEvictions_iff (hcount : σ.CountsEvictions) :
    τ.CountsEvictions ↔ σ.OffersBeforeLastPlace a := by
  cases stepped h with
  | enqueue sender message _ =>
      obtain ⟨_, hentered, hdropped⟩ := SendQueue.enqueue_dropOldest hstrategy message
      rw [CountsEvictions, settle_queue, settle_evicted, hdropped, List.length_append,
        OffersBeforeLastPlace, SendQueue.depth_eq]
      change _ = σ.evicted.length + _ ↔ _
      rw [← hcount]
      cases SendQueue.enqueue_effect σ.queue message with
      | kept entered _ _ => simp [hentered] at entered
      | added _ evicted _ content =>
          rw [evicted, content, List.length_append, List.length_singleton]
          split <;> simp_all
      | displaced oldest _ evicted _ full content =>
          have hlen := congrArg List.length content
          simp only [List.length_cons, List.length_append] at hlen
          have hfull : (σ.queue.enqueue message).queue.content.length = σ.queue.maxSize := by
            simp only [List.length_nil] at hlen
            omega
          rw [evicted, if_pos hfull, full]
          simp
  | wake sender message waits => simp [hwaiting] at waits
  | cancel sender message waits => simp [hwaiting] at waits
  | drained others q remaining sent serves same dropped _ =>
      have hmeets : σ.OffersBeforeLastPlace a := by
        cases a with
        | enqueue sender message => exact absurd rfl (serves sender message)
        | _ => trivial
      refine iff_of_true ?_ hmeets
      obtain ⟨_, _, _, hstats⟩ := Stepped.drained_content same remaining sent
      rw [CountsEvictions, advance_queue, advance_evicted, hstats, dropped]
      exact hcount

end Steps

section Runs

variable {connectionId : String} {maxSize : Nat} {acts : List (SendAction α)} {σ : SendSystem α}
  (run : Run step (start connectionId maxSize .dropOldest) acts σ)
include run

theorem dropOldest_of_run :
    (∀ s, σ.waiting s = none) ∧ σ.offered.length = σ.entered.length := by
  induction run with
  | nil => exact ⟨fun _ => rfl, rfl⟩
  | snoc run h ih => exact step_dropOldest (config_of_run run).1 ih.1 h ih.2

/-- In a reachable state the three statements about the counters are one. -/
theorem accountsForDrops_iff (hmax : 0 < maxSize) :
    σ.AccountsForDrops ↔ σ.CountsEvictions := by
  constructor
  · intro h
    exact h.dropped
  · intro hcount
    have hcount' : σ.queue.stats.messagesDropped = σ.evicted.length := hcount
    have hconserved : σ.entered.map Prod.snd =
        σ.departed.map Departure.element ++ σ.queue.content := (toFifo_of_run run hmax).conserved
    have hentered : σ.entered.length =
        σ.evicted.length + σ.handed.length + σ.queue.content.length := by
      calc
        σ.entered.length = (σ.entered.map Prod.snd).length := (List.length_map _).symm
        _ = (σ.departed.map Departure.element).length + σ.queue.content.length := by
            rw [hconserved, List.length_append]
        _ = σ.evicted.length + σ.handed.length + σ.queue.content.length := by
            rw [(Departure.taken_evicted_perm σ.departed).length_eq, List.length_append]
            rfl
    have hattempts := attempts_of_run run
    rw [SendSystem.attempts] at hattempts
    have hoffered := (dropOldest_of_run run).2
    refine ⟨hcount', ?_, ?_⟩
    · rw [SendQueue.depth_eq]
      omega
    · intro hsent
      have hzero : σ.queue.stats.messagesDropped = 0 := by omega
      simp [SendStats.dropRate, hzero]

end Runs

/-- In every state of a run of a DROP_OLDEST queue the counters account for the offered
messages if and only if no message of the run is offered to a queue with one place left. -/
theorem drops_accounted_iff {connectionId : String} {maxSize : Nat} (hmax : 0 < maxSize)
    {acts : List (SendAction α)} {σ : SendSystem α}
    (run : Run step (start connectionId maxSize .dropOldest) acts σ) :
    Throughout step (start connectionId maxSize .dropOldest)
        (fun _ σ => σ.AccountsForDrops) acts ↔
      EachStep step (start connectionId maxSize .dropOldest)
        (fun _ σ a => σ.OffersBeforeLastPlace a) acts := by
  refine throughout_iff_eachStep ?_ ?_ run
  · exact (accountsForDrops_iff Run.nil hmax).mpr rfl
  · intro acts σ a τ hrun haccount h
    rw [accountsForDrops_iff (hrun.snoc h) hmax]
    exact step_countsEvictions_iff (config_of_run hrun).1 (dropOldest_of_run hrun).1 h
      haccount.dropped

/-- A queue of three places is never filled: one message is sent, one fails, one is queued. -/
def slackActs : List (SendAction Nat) :=
  [.enqueue 0 7, .enqueue 1 8, .drain 10, .sendReturned 0, .sendRaised 0, .enqueue 0 9]

theorem drops_accounted_slack :
    Throughout step (start "c" 3 .dropOldest) (fun _ σ => σ.AccountsForDrops) slackActs := by
  have run := run_get
    (show (exec step (start "c" 3 .dropOldest) slackActs).isSome from by decide)
  apply (drops_accounted_iff (by decide) run).mpr
  decide

/-- The only message fills its queue and is delivered. -/
def fillActs : List (SendAction Nat) := [.enqueue 0 7, .drain 10, .sendReturned 0]

/-- It is delivered, and counted as dropped. -/
theorem delivered_message_counted_dropped :
    ∃ σ : SendSystem Nat, Run step (start "c" 1 .dropOldest) fillActs σ ∧
      σ.drains = [] ∧ σ.offered.length = 1 ∧ σ.queue.stats.messagesSent = 1 ∧
      σ.evicted = [] ∧ σ.queue.stats.messagesDropped = 1 ∧ σ.queue.stats.dropRate = 1 ∧
      ¬ σ.AccountsForDrops := by
  have hstats : ((exec step (start "c" 1 .dropOldest) fillActs).get (by decide)).queue.stats =
      ⟨"c", 0, 1, 1, 0, 0⟩ := by decide
  refine ⟨_, run_get (by decide), by decide, by decide, by decide, by decide, by decide, ?_, ?_⟩
  · rw [hstats]
    simp [SendStats.dropRate]
  · intro haccount
    exact absurd haccount.dropped (by decide)

end WebSocketPatterns.Backpressure.SendSystem
