import WebSocketPatterns.Backpressure.Quiescence

/-!
# Cancelled drains

A drain is cancelled where it is suspended, in `send_fn`. `CancelledError` is
not an `Exception`, so the drain ends without a count: it is a failed send that
`send_errors` does not show, and the one message that it held is in no counter.
-/

namespace WebSocketPatterns.Backpressure

open Transition

variable {α : Type*}

/-- The same outcome, with another queue. -/
def Outcome.onQueue (f : SendQueue α → SendQueue α) (o : Outcome α) : Outcome α :=
  { o with queue := f o.queue }

/-- A call on the queue, or the cancellation of the listed drain. -/
inductive CancelAction (α : Type*)
  | call (a : SendAction α)
  | cancelDrain (drain : Nat)

/-- The system, and the drains that were cancelled, which no code reads. -/
structure CancelSystem (α : Type*) where
  system : SendSystem α
  cancelled : List (Drain α)

/-! ## Nothing depends on the count of errors -/

namespace SendQueue

/-- The queue with further errors counted. -/
def withErrors (errors : Nat) (q : SendQueue α) : SendQueue α :=
  { q with stats.sendErrors := q.stats.sendErrors + errors }

@[simp] theorem withErrors_strategy (errors : Nat) (q : SendQueue α) :
    (q.withErrors errors).strategy = q.strategy := rfl

theorem withErrors_markHighWater (errors : Nat) (q : SendQueue α) :
    (q.withErrors errors).markHighWater = q.markHighWater.withErrors errors := rfl

theorem withErrors_put (errors : Nat) (q : SendQueue α) (message : α) :
    (q.withErrors errors).put message = (q.put message).onQueue (withErrors errors) := by
  generalize hput : (q.withErrors errors).put message = outcome
  unfold put at hput ⊢
  -- the two queues have the same storage, so that both take the same branch
  split at hput
  case h_1 ha =>
    split
    case h_1 => exact hput.symm
    case h_2 b hb => simp [withErrors, hb] at ha
  case h_2 a ha =>
    split
    case h_1 hb => simp [withErrors, hb] at ha
    case h_2 b hb =>
      obtain rfl := Option.some.inj (ha.symm.trans hb)
      split at hput
      · exact hput.symm
      · exact hput.symm

theorem withErrors_enqueue (errors : Nat) (q : SendQueue α) (message : α) :
    (q.withErrors errors).enqueue message =
      (q.enqueue message).onQueue (withErrors errors) := by
  have hput := withErrors_put errors q.markHighWater message
  cases hs : q.strategy with
  | dropOldest =>
      simp only [enqueue, withErrors_markHighWater, withErrors_strategy, markHighWater_strategy, hs]
      by_cases hfull : (q.queue.append message).items.length = q.maxSize
      · simp [Outcome.onQueue, withErrors, markHighWater, hfull]
      · simp [Outcome.onQueue, withErrors, markHighWater, hfull]
  | dropNewest =>
      simp only [enqueue, withErrors_markHighWater, withErrors_strategy, markHighWater_strategy, hs]
      rw [apply_ite (Outcome.onQueue _)]
      exact ite_congr rfl (fun _ => rfl) (fun _ => hput)
  | blockSender =>
      simp only [enqueue, withErrors_markHighWater, withErrors_strategy, markHighWater_strategy, hs]
      exact hput
  | disconnect =>
      simp only [enqueue, withErrors_markHighWater, withErrors_strategy, markHighWater_strategy, hs]
      rw [apply_ite (Outcome.onQueue _)]
      exact ite_congr rfl (fun _ => rfl) (fun _ => rfl)

theorem withErrors_pop (errors : Nat) (q : SendQueue α) :
    (q.withErrors errors).pop = q.pop.map (Prod.map id (withErrors errors)) := by
  generalize hpop : (q.withErrors errors).pop = popped
  unfold pop at hpop ⊢
  split at hpop
  case h_1 a ha =>
    split
    case h_1 b hb =>
      obtain rfl := Option.some.inj (ha.symm.trans hb)
      split at hpop
      · exact hpop.symm
      · exact hpop.symm
    case h_2 hb => simp [withErrors, hb] at ha
  case h_2 ha =>
    split
    case h_1 b hb => simp [withErrors, hb] at ha
    case h_2 =>
      split at hpop
      case h_1 hp =>
        split
        case h_1 => exact hpop.symm
        case h_2 hp' => exact absurd (hp.symm.trans hp') (by simp)
      case h_2 message d hp =>
        split
        case h_1 hp' => exact absurd (hp.symm.trans hp') (by simp)
        case h_2 message' d' hp' =>
          obtain ⟨rfl, rfl⟩ := Prod.mk.inj (Option.some.inj (hp.symm.trans hp'))
          exact hpop.symm

theorem withErrors_drainNext (errors : Nat) (q : SendQueue α) (remaining sent : Nat) :
    (q.withErrors errors).drainNext remaining sent =
      Prod.map (withErrors errors) id (q.drainNext remaining sent) := by
  cases remaining with
  | zero => rfl
  | succ remaining =>
      rw [drainNext, drainNext, withErrors_pop]
      cases q.pop with
      | none => rfl
      | some popped => rfl

end SendQueue

namespace SendSystem

/-- The state with further errors counted, of drains that had made some sends before. -/
def withErrors (errors sends : Nat) (σ : SendSystem α) : SendSystem α :=
  { σ with
    queue := σ.queue.withErrors errors
    returnedSends := σ.returnedSends + sends }

theorem withErrors_advance (errors sends : Nat) (σ : SendSystem α) (others : List (Drain α))
    (result : SendQueue α × DrainProgress α) :
    (σ.withErrors errors sends).advance others (Prod.map (SendQueue.withErrors errors) id result) =
      (σ.advance others result).withErrors errors sends := by
  obtain ⟨q, progress⟩ := result
  cases progress with
  | returned sent => simp [advance, withErrors, Nat.add_right_comm]
  | sending d => rfl

/-- No action depends on the errors counted so far. -/
theorem withErrors_step (errors sends : Nat) (σ : SendSystem α) (a : SendAction α) :
    (σ.withErrors errors sends).step a = (σ.step a).map (withErrors errors sends) := by
  cases a with
  | enqueue sender message =>
      have hqueue := SendQueue.withErrors_enqueue errors σ.queue message
      have hwaiting : (σ.withErrors errors sends).waiting = σ.waiting := rfl
      cases hw : σ.waiting sender with
      | some _ => simp only [step, hwaiting, hw, Option.map_none]
      | none =>
          simp only [step, hwaiting, hw, Option.map_some]
          simp only [withErrors, hqueue]
          rfl
  | wake sender =>
      have hqueue := SendQueue.withErrors_put errors σ.queue
      simp only [step, Option.map_map]
      change (σ.waiting sender).map _ = _
      congr 1
      funext message
      simp only [withErrors, hqueue]
      rfl
  | cancel sender =>
      simp only [step, Option.map_map]
      rfl
  | drain batchSize =>
      simp only [step, SendQueue.drain, Option.map_some, ← withErrors_advance,
        ← SendQueue.withErrors_drainNext]
      rfl
  | sendReturned i =>
      simp only [step, Option.map_map]
      change (σ.drains[i]?).map _ = _
      congr 1
      funext d
      simp only [Function.comp_apply, SendQueue.sendReturned, ← withErrors_advance,
        ← SendQueue.withErrors_drainNext]
      rfl
  | sendRaised i =>
      simp only [step, Option.map_map]
      change (σ.drains[i]?).map _ = _
      congr 1
      funext d
      simp [SendQueue.sendRaised, SendQueue.withErrors, advance, withErrors, Nat.add_right_comm]

/-- The count of errors takes no place in the queue. -/
theorem consumes_of_withErrors {errors sends : Nat} {σ : SendSystem α}
    {acts : List (SendAction α)}
    (h : EachStep step (σ.withErrors errors sends) (fun _ => Consumes) acts) :
    EachStep step σ (fun _ => Consumes) acts := by
  rw [← List.map_id acts] at h
  have hsame : ∀ (υ : SendSystem α) (a : SendAction α),
      (υ.withErrors errors sends).Consumes a = υ.Consumes a := by
    intro υ a
    cases a <;> rfl
  have hstep : ∀ (υ : SendSystem α) (a : SendAction α) (ω : SendSystem α), υ.step a = some ω →
      (υ.withErrors errors sends).step (id a) = some (ω.withErrors errors sends) := by
    intro υ a ω hω
    rw [id_eq, withErrors_step, hω, Option.map_some]
  simpa only [id_eq, hsame] using EachStep.of_map hstep h

/-- What can happen with further errors counted can happen without them. -/
theorem exists_run_of_withErrors {errors sends : Nat} {σ τ : SendSystem α}
    {acts : List (SendAction α)} (run : Run step (σ.withErrors errors sends) acts τ) :
    ∃ ω, Run step σ acts ω ∧ ω.withErrors errors sends = τ := by
  induction run with
  | nil => exact ⟨σ, Run.nil, rfl⟩
  | snoc _ h ih =>
      obtain ⟨ω, hω, rfl⟩ := ih
      rw [withErrors_step] at h
      obtain ⟨υ, hυ, rfl⟩ := Option.map_eq_some_iff.mp h
      exact ⟨υ, hω.snoc hυ, rfl⟩

end SendSystem

/-! ## Cancellations as failures -/

namespace CancelAction

/-- The action that has the same effect on the queue. -/
def asFailure : CancelAction α → SendAction α
  | .call a => a
  | .cancelDrain i => .sendRaised i

def isCancelDrain : CancelAction α → Bool
  | .call _ => false
  | .cancelDrain _ => true

end CancelAction

namespace CancelSystem

def start (connectionId : String) (maxSize : Nat) (strategy : BackpressureStrategy) :
    CancelSystem α where
  system := SendSystem.start connectionId maxSize strategy
  cancelled := []

/-- One action; a cancelled drain is gone, and neither counts its send nor returns. -/
def step (σ : CancelSystem α) : CancelAction α → Option (CancelSystem α)
  | .call a => (σ.system.step a).map fun system => { σ with system := system }
  | .cancelDrain i =>
      (σ.system.drains[i]?).map fun d =>
        { system := { σ.system with drains := σ.system.drains.eraseIdx i }
          cancelled := σ.cancelled ++ [d] }

/-- The state in which every cancelled drain had failed. -/
def asFailures (σ : CancelSystem α) : SendSystem α :=
  σ.system.withErrors σ.cancelled.length (σ.cancelled.map Drain.sent).sum

theorem step_asFailures (σ : CancelSystem α) (a : CancelAction α) (τ : CancelSystem α)
    (h : σ.step a = some τ) : σ.asFailures.step a.asFailure = some τ.asFailures := by
  cases a with
  | call a =>
      obtain ⟨system, hsystem, rfl⟩ := Option.map_eq_some_iff.mp h
      change (σ.system.withErrors _ _).step a = _
      rw [SendSystem.withErrors_step, hsystem]
      rfl
  | cancelDrain i =>
      -- the failed drain is counted in `send_errors` and returns what it had sent
      obtain ⟨d, hd, rfl⟩ := Option.map_eq_some_iff.mp h
      change (σ.system.withErrors _ _).step (.sendRaised i) = _
      rw [SendSystem.withErrors_step]
      simp [SendSystem.step, hd, asFailures, SendSystem.withErrors, SendSystem.advance,
        SendQueue.sendRaised, SendQueue.withErrors, Nat.add_assoc, Nat.add_comm,
        Nat.add_left_comm]

/-- Without further cancellations the system goes on by its own calls. -/
theorem run_calls {σ : CancelSystem α} {acts : List (SendAction α)} {τ : SendSystem α}
    (run : Run SendSystem.step σ.system acts τ) :
    Run step σ (acts.map .call) { σ with system := τ } :=
  run.map (f := fun system => ({ σ with system := system } : CancelSystem α))
    fun _ _ _ h => congrArg (Option.map _) h

section Runs

variable {connectionId : String} {maxSize : Nat} {strategy : BackpressureStrategy}
  {acts : List (CancelAction α)} {σ : CancelSystem α}
  (run : Run step (start connectionId maxSize strategy) acts σ)
include run

/-- A run with cancelled drains is a run in which they failed. -/
theorem run_asFailures :
    Run SendSystem.step (SendSystem.start connectionId maxSize strategy)
      (acts.map CancelAction.asFailure) σ.asFailures :=
  run.map (f := asFailures) step_asFailures

theorem cancelled_length_of_run :
    σ.cancelled.length = acts.countP CancelAction.isCancelDrain := by
  induction run with
  | nil => rfl
  | @snoc acts σ a τ _ h ih =>
      rw [List.countP_append, List.countP_singleton, ← ih]
      cases a with
      | call a =>
          obtain ⟨_, _, rfl⟩ := Option.map_eq_some_iff.mp h
          rfl
      | cancelDrain i =>
          obtain ⟨d, _, rfl⟩ := Option.map_eq_some_iff.mp h
          simp [CancelAction.isCancelDrain]

end Runs

/-- Over every run in which drains may be cancelled at any time, the queue keeps its bound and
its order; and of the messages handed to `send_fn`, which were counted as queued where nothing
is evicted, those that are in no counter and no longer in flight are as many as drains were
cancelled. -/
theorem cancelled_drains_accounted {connectionId : String} {maxSize : Nat}
    {strategy : BackpressureStrategy} {acts : List (CancelAction α)} {σ : CancelSystem α}
    (hmax : 0 < maxSize) (run : Run step (start connectionId maxSize strategy) acts σ) :
    σ.system.queue.depth ≤ maxSize ∧
    (σ.system.handed ++ σ.system.queue.content).Sublist (σ.system.entered.map Prod.snd) ∧
    σ.system.handed.length = σ.system.queue.stats.messagesSent +
      σ.system.queue.stats.sendErrors + σ.system.drains.length +
      acts.countP CancelAction.isCancelDrain ∧
    (strategy ≠ .dropOldest →
      σ.system.queue.stats.messagesQueued = σ.system.queue.stats.messagesSent +
        σ.system.queue.stats.sendErrors + σ.system.queue.depth + σ.system.drains.length +
        acts.countP CancelAction.isCancelDrain) := by
  have run' := run_asFailures run
  have hreach := SendSystem.toFifo_of_run run' hmax
  have hcancelled := cancelled_length_of_run run
  have hattempts : σ.system.queue.stats.messagesSent +
      (σ.system.queue.stats.sendErrors + σ.cancelled.length) + σ.system.drains.length =
        σ.system.handed.length := SendSystem.attempts_of_run run'
  refine ⟨?_, ?_, by omega, ?_⟩
  · rw [SendQueue.depth_eq]
    exact hreach.bounded
  · have hconserved : σ.system.entered.map Prod.snd =
        σ.system.departed.map Departure.element ++ σ.system.queue.content := hreach.conserved
    rw [hconserved]
    exact (Departure.taken_sublist σ.system.departed).append_right _
  · intro hstrategy
    have hqueued : σ.system.queue.stats.messagesQueued = σ.system.entered.length :=
      (SendSystem.counted_of_run run' hstrategy).queued
    have hentered : σ.system.entered.length = σ.system.handed.length + σ.system.queue.depth :=
      SendSystem.entered_length_of_run (σ := σ.asFailures) run' hmax hstrategy
    omega

/-- Two drains hold a message each; one of them is cancelled, and the queue goes on. -/
def cancelActs : List (CancelAction Nat) :=
  [.call (.enqueue 0 7), .call (.enqueue 0 8), .call (.enqueue 0 9), .call (.drain 1),
    .call (.drain 2), .cancelDrain 0, .call (.sendReturned 0)]

theorem cancelled_drains_accounted_two :
    ∃ σ, Run step (start "c" 3 .disconnect) cancelActs σ ∧
      σ.system.queue.stats.sendErrors = 0 ∧
      σ.system.queue.stats.messagesQueued =
        σ.system.queue.stats.messagesSent + σ.system.drains.length + 1 := by
  have run := run_get
    (show (exec step (start "c" 3 .disconnect) cancelActs).isSome from by decide)
  have hbalance := (cancelled_drains_accounted (by decide) run).2.2.2 (by decide)
  exact ⟨_, run, by decide, hbalance.trans (by decide)⟩

/-- Wherever drains were cancelled, drains whose sends succeed, and wake-ups where the queue has
a free place, alone bring the queue to rest afterwards, and hand over all that was queued, in
its order, and after it each waiting sender's message, once. -/
theorem rests_after_cancels {connectionId : String} {maxSize : Nat}
    {strategy : BackpressureStrategy} {acts : List (CancelAction α)} {σ : CancelSystem α}
    (run : Run step (start connectionId maxSize strategy) acts σ) :
    ∃ (more : List (SendAction α)) (τ : CancelSystem α),
      EachStep SendSystem.step σ.system (fun _ => SendSystem.Consumes) more ∧
      Run step σ (more.map .call) τ ∧ τ.system.AtRest ∧
      (∃ woken, τ.system.handed =
          σ.system.handed ++ σ.system.queue.content ++ woken.map Prod.snd ∧
        ∀ s, SendSystem.ofSender s woken = (σ.system.waiting s).toList) ∧
      τ.system.evicted = σ.system.evicted ∧
      τ.system.queue.stats.sendErrors = σ.system.queue.stats.sendErrors ∧
      τ.system.queue.stats.messagesSent + τ.system.queue.stats.sendErrors +
        acts.countP CancelAction.isCancelDrain = τ.system.handed.length := by
  have run' := run_asFailures run
  obtain ⟨more, τ', hmore, hrun, hτ, hrest⟩ := SendSystem.exists_rest_of_run run'
  obtain ⟨τ, hcalls, rfl⟩ := SendSystem.exists_run_of_withErrors hrun
  have hattempts : τ.queue.stats.messagesSent +
      (τ.queue.stats.sendErrors + σ.cancelled.length) + τ.drains.length = τ.handed.length :=
    SendSystem.attempts_of_run (run'.append hrun)
  have hcancelled := cancelled_length_of_run run
  have herrors : τ.queue.stats.sendErrors + σ.cancelled.length =
      σ.system.queue.stats.sendErrors + σ.cancelled.length := hτ.errors
  have hdrains : τ.drains = [] := hrest.drains
  rw [hdrains, List.length_nil] at hattempts
  refine ⟨more, _, SendSystem.consumes_of_withErrors hmore, run_calls hcalls,
    ⟨hrest.waiting, hrest.content, hdrains⟩, hτ.handed_at_rest hrest, hτ.evicted, ?_, ?_⟩
  · exact Nat.add_right_cancel herrors
  · dsimp only
    omega

theorem rests_after_cancels_two :
    let σ := (exec step (start "c" 3 .disconnect) cancelActs).get (by decide)
    ∃ (more : List (SendAction Nat)) (τ : CancelSystem Nat),
      Run step σ (more.map .call) τ ∧ τ.system.AtRest ∧
      τ.system.queue.stats.messagesSent + τ.system.queue.stats.sendErrors + 1 =
        τ.system.handed.length := by
  intro σ
  have run : Run step (start "c" 3 .disconnect) cancelActs σ := run_get (by decide)
  obtain ⟨more, τ, _, hrun, hrest, _, _, _, hcount⟩ := rests_after_cancels run
  exact ⟨more, τ, hrun, hrest, hcount⟩

end CancelSystem

end WebSocketPatterns.Backpressure
