import WebSocketPatterns.Backpressure.Refinement

/-!
# Conservation of messages outside DROP_OLDEST

The other three strategies evict nothing, so every message counted as queued
was sent, failed, is still queued, or is held by a drain suspended in its send.
`enqueue` counts a message in the step in which it enters, and a drain counts a
send in the step in which the send ends.
-/

namespace WebSocketPatterns.Backpressure

open Transition

variable {α : Type*}

namespace SendQueue

/-- What a call does to the two counters of a queue that evicts nothing. -/
structure Counts (q : SendQueue α) (o : Outcome α) : Prop where
  queued : o.queue.stats.messagesQueued = q.stats.messagesQueued + if o.entered then 1 else 0
  suspends : o.returned = none → q.strategy = .blockSender
  total : q.strategy = .dropNewest → o.queue.stats.messagesQueued + o.queue.stats.messagesDropped =
    q.stats.messagesQueued + q.stats.messagesDropped + 1

/-- A put on the storage it has counts its message when it enters. -/
theorem put_counts {q : SendQueue α} {a : AsyncQueue α} (ha : q.asyncQueue = some a)
    (hroom : q.strategy = .dropNewest → ¬ a.full) (message : α) :
    q.Counts (q.put message) := by
  have hstrategy := (maxsize_of_some ha).2
  unfold put
  split
  case h_1 hnone => simp [ha] at hnone
  case h_2 b hb =>
    obtain rfl := Option.some.inj (ha.symm.trans hb)
    split
    case h_1 hp =>
      have hfull := (AsyncQueue.putNowait_eq_none_iff a message).mp hp
      have hblock : q.strategy = .blockSender :=
        hstrategy.resolve_right fun hnewest => hroom hnewest hfull
      exact ⟨rfl, fun _ => hblock, fun hnewest => absurd hfull (hroom hnewest)⟩
    case h_2 =>
      refine ⟨rfl, by simp, fun _ => ?_⟩
      dsimp only
      omega

theorem enqueue_counts {q : SendQueue α} (h : q.strategy ≠ .dropOldest) (message : α) :
    q.Counts (q.enqueue message) := by
  cases hs : q.strategy with
  | dropOldest => exact absurd hs h
  | dropNewest =>
      obtain ⟨a, ha⟩ := Option.ne_none_iff_exists'.mp
        ((asyncQueue_eq_none_iff q).not.mpr (by simp [hs]))
      simp only [enqueue, markHighWater_strategy, markHighWater_asyncQueue, hs, ha]
      split
      · refine ⟨rfl, by simp, fun _ => ?_⟩
        dsimp only [markHighWater]
        omega
      case isFalse hroom =>
        have hcounts := put_counts (q := q.markHighWater) ha (fun _ => by simpa using hroom) message
        exact ⟨hcounts.queued, hcounts.suspends, hcounts.total⟩
  | blockSender =>
      obtain ⟨a, ha⟩ := Option.ne_none_iff_exists'.mp (asyncQueue_ne_none hs)
      simp only [enqueue, markHighWater_strategy, hs]
      have hcounts := put_counts (q := q.markHighWater) ha (by simp [hs]) message
      exact ⟨hcounts.queued, hcounts.suspends, hcounts.total⟩
  | disconnect =>
      simp only [enqueue, markHighWater_strategy, hs]
      split
      · exact ⟨rfl, by simp, by simp [hs]⟩
      · exact ⟨rfl, by simp, by simp [hs]⟩

end SendQueue

namespace SendSystem

/-- The sends completed by the drains that are still running. -/
def sentByRunning (σ : SendSystem α) : Nat := (σ.drains.map Drain.sent).sum

/-- The sends of the finished drains, as they returned them, and of the running ones. -/
def reportedSends (σ : SendSystem α) : Nat := σ.returnedSends + σ.sentByRunning

/-- A drain that has run reports the sends it had counted, in what it returns or holds. -/
theorem advance_reportedSends (σ : SendSystem α) (others : List (Drain α)) (q : SendQueue α)
    (remaining sent : Nat) :
    (σ.advance others (q.drainNext remaining sent)).reportedSends =
      σ.returnedSends + (others.map Drain.sent).sum + sent := by
  have hsent : ∀ r d, q.drainNext remaining sent = (r, .sending d) → d.sent = sent := by
    intro r d hd
    unfold SendQueue.drainNext at hd
    split at hd
    · simp at hd
    · split at hd
      · simp at hd
      · obtain ⟨_, hprogress⟩ := Prod.mk.inj hd
        rw [← DrainProgress.sending.inj hprogress]
  have hreturned : ∀ r n, q.drainNext remaining sent = (r, .returned n) → n = sent := by
    intro r n hn
    unfold SendQueue.drainNext at hn
    split at hn
    · exact (DrainProgress.returned.inj (Prod.mk.inj hn).2).symm
    · split at hn
      · exact (DrainProgress.returned.inj (Prod.mk.inj hn).2).symm
      · simp at hn
  cases hr : q.drainNext remaining sent with
  | mk r progress =>
      cases progress with
      | returned n =>
          rw [hreturned r n hr]
          simp only [reportedSends, sentByRunning, advance]
          omega
      | sending d =>
          simp [reportedSends, sentByRunning, advance, hsent r d hr, Nat.add_assoc]

/-- Taking a drain out of the list takes its sends out of the sum. -/
theorem sum_sent_eraseIdx {drains : List (Drain α)} {i : Nat} {d : Drain α}
    (h : drains[i]? = some d) :
    ((drains.eraseIdx i).map Drain.sent).sum + d.sent = (drains.map Drain.sent).sum := by
  obtain ⟨hi, rfl⟩ := List.getElem?_eq_some_iff.mp h
  have hperm := (List.getElem_cons_eraseIdx_perm hi).map Drain.sent
  rw [← hperm.sum_nat, List.map_cons, List.sum_cons, Nat.add_comm]

section Steps

variable {σ τ : SendSystem α} {a : SendAction α} (h : σ.step a = some τ)
include h

/-- Every counted send is reported by the drain that made it. -/
theorem step_reportedSends (hσ : σ.reportedSends = σ.queue.stats.messagesSent) :
    τ.reportedSends = τ.queue.stats.messagesSent := by
  have hends : ∀ (i : Nat) (d : Drain α) (q : SendQueue α) (remaining ended : Nat),
      σ.drains[i]? = some d →
      q.stats.messagesSent = σ.queue.stats.messagesSent + ended →
      (σ.advance (σ.drains.eraseIdx i) (q.drainNext remaining (d.sent + ended))).reportedSends =
        (σ.advance (σ.drains.eraseIdx i)
          (q.drainNext remaining (d.sent + ended))).queue.stats.messagesSent := by
    intro i d q remaining ended hd hq
    have hsum := sum_sent_eraseIdx hd
    rw [advance_reportedSends, advance_stats, hq, ← hσ, reportedSends, sentByRunning]
    omega
  cases a with
  | enqueue sender message =>
      cases stepped h with
      | enqueue _ _ _ =>
          have frame := SendQueue.enqueue_frame σ.queue message
          exact hσ.trans frame.messagesSent.symm
      | drained _ _ _ _ serves _ _ _ => exact absurd rfl (serves sender message)
  | wake sender =>
      obtain ⟨message, _, rfl⟩ := Option.map_eq_some_iff.mp h
      have frame := SendQueue.put_frame σ.queue message
      exact hσ.trans frame.messagesSent.symm
  | cancel sender =>
      obtain ⟨message, _, rfl⟩ := Option.map_eq_some_iff.mp h
      exact hσ
  | drain batchSize =>
      obtain rfl := Option.some.inj h
      rw [SendQueue.drain, advance_reportedSends, advance_stats, Nat.add_zero]
      exact hσ
  | sendReturned i =>
      obtain ⟨d, hd, rfl⟩ := Option.map_eq_some_iff.mp h
      exact hends i d { σ.queue with stats.messagesSent := σ.queue.stats.messagesSent + 1 }
        d.remaining 1 hd rfl
  | sendRaised i =>
      obtain ⟨d, hd, rfl⟩ := Option.map_eq_some_iff.mp h
      exact hends i d { σ.queue with stats.sendErrors := σ.queue.stats.sendErrors + 1 } 0 0 hd rfl

end Steps

/-- What the counters of a queue that evicts nothing say between any two actions. -/
structure Counted (σ : SendSystem α) : Prop where
  queued : σ.queue.stats.messagesQueued = σ.entered.length
  waiting : ∀ s m, σ.waiting s = some m → σ.queue.strategy = .blockSender
  total : σ.queue.strategy = .dropNewest →
    σ.offered.length = σ.queue.stats.messagesQueued + σ.queue.stats.messagesDropped

/-- A put that has run keeps the counters right, for a call that was or was not counted among
the offered ones before. -/
theorem Counted.settle {σ : SendSystem α} (counted : σ.Counted) {sender : Nat} {message : α}
    {o : Outcome α} (offered : List (Nat × α)) (frame : σ.queue.Frame o.queue)
    (counts : σ.queue.Counts o)
    (htotal : σ.queue.strategy = .dropNewest → offered.length = σ.offered.length + 1) :
    Counted (settle { σ with offered := offered } sender message o) where
  queued := by
    change o.queue.stats.messagesQueued = (σ.entered ++ _).length
    rw [counts.queued, counted.queued, List.length_append]
    split <;> rfl
  waiting := by
    intro s m hw
    change o.queue.strategy = .blockSender
    rw [frame.strategy]
    by_cases hs : s = sender
    · subst hs
      apply counts.suspends
      cases hr : o.returned with
      | none => rfl
      | some b => simp [SendSystem.settle, hr] at hw
    · exact counted.waiting s m (by simpa [SendSystem.settle, hs] using hw)
  total := by
    intro hnewest
    have hnewest' : σ.queue.strategy = .dropNewest := frame.strategy.symm.trans hnewest
    change offered.length = o.queue.stats.messagesQueued + o.queue.stats.messagesDropped
    rw [counts.total hnewest', htotal hnewest', counted.total hnewest']

/-- A drain counts no message as queued or dropped. -/
theorem Counted.advance {σ : SendSystem α} (counted : σ.Counted) (others : List (Drain α))
    {q : SendQueue α} (remaining sent : Nat) (hstrategy : q.strategy = σ.queue.strategy)
    (hqueued : q.stats.messagesQueued = σ.queue.stats.messagesQueued)
    (hdropped : q.stats.messagesDropped = σ.queue.stats.messagesDropped) :
    Counted (σ.advance others (q.drainNext remaining sent)) := by
  obtain ⟨hw, ho, he⟩ := advance_senders σ others (q.drainNext remaining sent)
  obtain ⟨_, hs, _⟩ := SendQueue.drainNext_spec q remaining sent
  constructor
  · rw [advance_stats, he, hqueued]
    exact counted.queued
  · rw [advance_queue, hw, hs, hstrategy]
    exact counted.waiting
  · rw [advance_stats, advance_queue, ho, hs, hstrategy, hqueued, hdropped]
    exact counted.total

theorem Counted.step {σ τ : SendSystem α} {a : SendAction α} (counted : σ.Counted)
    (hstrategy : σ.queue.strategy ≠ .dropOldest) (h : σ.step a = some τ) : τ.Counted := by
  cases a with
  | enqueue sender message =>
      cases stepped h with
      | enqueue _ _ _ =>
          apply counted.settle _ (SendQueue.enqueue_frame σ.queue message)
            (SendQueue.enqueue_counts hstrategy message)
          intro _
          rw [List.length_append, List.length_singleton]
      | drained _ _ _ _ serves _ _ _ => exact absurd rfl (serves sender message)
  | wake sender =>
      obtain ⟨message, waits, rfl⟩ := Option.map_eq_some_iff.mp h
      have hblock := counted.waiting sender message waits
      obtain ⟨a, ha⟩ := Option.ne_none_iff_exists'.mp (SendQueue.asyncQueue_ne_none hblock)
      apply counted.settle σ.offered (SendQueue.put_frame σ.queue message)
        (SendQueue.put_counts ha (by simp [hblock]) message)
      simp [hblock]
  | cancel sender =>
      obtain ⟨message, _, rfl⟩ := Option.map_eq_some_iff.mp h
      refine ⟨counted.queued, ?_, counted.total⟩
      intro s m hw
      by_cases hs : s = sender
      · simp [hs] at hw
      · exact counted.waiting s m (by simpa [hs] using hw)
  | drain batchSize =>
      obtain rfl := Option.some.inj h
      exact counted.advance σ.drains batchSize.toNat 0 rfl rfl rfl
  | sendReturned i =>
      obtain ⟨d, _, rfl⟩ := Option.map_eq_some_iff.mp h
      exact counted.advance (σ.drains.eraseIdx i)
        (q := { σ.queue with stats.messagesSent := σ.queue.stats.messagesSent + 1 })
        d.remaining (d.sent + 1) rfl rfl rfl
  | sendRaised i =>
      obtain ⟨d, _, rfl⟩ := Option.map_eq_some_iff.mp h
      exact counted.advance (σ.drains.eraseIdx i)
        (q := { σ.queue with stats.sendErrors := σ.queue.stats.sendErrors + 1 })
        0 d.sent rfl rfl rfl

section Runs

variable {connectionId : String} {maxSize : Nat} {strategy : BackpressureStrategy}
  {acts : List (SendAction α)} {σ : SendSystem α}
  (run : Run step (start connectionId maxSize strategy) acts σ)
include run

theorem counted_of_run (hstrategy : strategy ≠ .dropOldest) : σ.Counted := by
  induction run with
  | nil => exact ⟨rfl, by simp [start], fun _ => rfl⟩
  | snoc run h ih =>
      apply ih.step ?_ h
      rw [(config_of_run run).1]
      exact hstrategy

theorem reportedSends_of_run : σ.reportedSends = σ.queue.stats.messagesSent := by
  induction run with
  | nil => rfl
  | snoc _ h ih => exact step_reportedSends h ih

/-- Without evictions, what entered was handed over or is queued. -/
theorem entered_length_of_run (hmax : 0 < maxSize) (hstrategy : strategy ≠ .dropOldest) :
    σ.entered.length = σ.handed.length + σ.queue.depth := by
  have hreach := toFifo_of_run run hmax
  have hconserved : σ.entered.map Prod.snd =
      σ.departed.map Departure.element ++ σ.queue.content := hreach.conserved
  have hnone : σ.departed.filterMap Departure.evicted? = [] := by
    by_contra hne
    exact hstrategy (hreach.evicting_of_evicted hne)
  calc
    σ.entered.length = (σ.entered.map Prod.snd).length := (List.length_map _).symm
    _ = (σ.departed.map Departure.element).length + σ.queue.content.length := by
        rw [hconserved, List.length_append]
    _ = σ.handed.length + σ.queue.depth := by
        rw [← Departure.taken_of_evicted_eq_nil hnone, SendQueue.depth_eq]
        rfl

end Runs

/-- After every run of a queue that evicts nothing: the messages counted as queued are those
that entered, and each of them was sent, failed, is queued, or is held by a suspended drain;
under DROP_NEWEST no call suspends, and every call was counted as queued or as dropped; and
the drains report exactly the sends counted. -/
theorem messages_conserved {connectionId : String} {maxSize : Nat}
    {strategy : BackpressureStrategy} {acts : List (SendAction α)} {σ : SendSystem α}
    (hmax : 0 < maxSize) (hstrategy : strategy ≠ .dropOldest)
    (run : Run step (start connectionId maxSize strategy) acts σ) :
    σ.queue.stats.messagesQueued = σ.queue.stats.messagesSent + σ.queue.stats.sendErrors +
      σ.queue.depth + σ.drains.length ∧
    σ.queue.stats.messagesQueued = σ.entered.length ∧
    (strategy = .dropNewest →
      σ.offered.length = σ.queue.stats.messagesQueued + σ.queue.stats.messagesDropped ∧
        (∀ s, σ.waiting s = none) ∧
        ∀ message, (σ.queue.enqueue message).returned.isSome = true) ∧
    σ.returnedSends + (σ.drains.map Drain.sent).sum = σ.queue.stats.messagesSent := by
  have counted := counted_of_run run hstrategy
  have hconfig := (config_of_run run).1
  refine ⟨?_, counted.queued, ?_, reportedSends_of_run run⟩
  · have hattempts := attempts_of_run run
    have hentered := entered_length_of_run run hmax hstrategy
    rw [attempts] at hattempts
    rw [counted.queued, hentered]
    omega
  · intro hnewest
    have hne : σ.queue.strategy ≠ .blockSender := by simp [hconfig, hnewest]
    refine ⟨counted.total (hconfig.trans hnewest), ?_, ?_⟩
    · intro s
      rw [Option.eq_none_iff_forall_ne_some]
      intro m hw
      exact hne (counted.waiting s m hw)
    · intro message
      have counts := SendQueue.enqueue_counts (hconfig ▸ hstrategy) message
      rw [Option.isSome_iff_ne_none]
      intro hsuspends
      exact hne (counts.suspends hsuspends)

/-- Two senders share a queue of one message, one blocked put is cancelled, and one of two
drains in flight fails. -/
def blockedActs : List (SendAction Nat) :=
  [.enqueue 0 7, .enqueue 1 8, .enqueue 2 9, .drain 10, .cancel 1, .wake 2, .drain 1,
    .sendRaised 0, .enqueue 0 6]

theorem messages_conserved_blocked :
    let σ := (exec step (start "c" 1 .blockSender) blockedActs).get (by decide)
    σ.queue.stats.messagesQueued = 3 ∧ σ.queue.stats.sendErrors = 1 ∧ σ.queue.depth = 1 ∧
      σ.drains.length = 1 ∧ σ.entered.length = 3 ∧
      σ.queue.stats.messagesQueued = σ.queue.stats.messagesSent + σ.queue.stats.sendErrors +
        σ.queue.depth + σ.drains.length := by
  have run := run_get
    (show (exec step (start "c" 1 .blockSender) blockedActs).isSome from by decide)
  obtain ⟨hbalance, hentered, _⟩ := messages_conserved (by decide) (by decide) run
  exact ⟨by decide, by decide, by decide, by decide, hentered.symm.trans (by decide), hbalance⟩

end SendSystem

end WebSocketPatterns.Backpressure
