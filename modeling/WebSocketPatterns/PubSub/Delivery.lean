import WebSocketPatterns.PubSub.BusRuns

/-!
# Ordered exactly-once delivery

What a subscriber's consumer has yielded, followed by the messages still in its
queue, is the list of the publishes its queue accepted, in publish order. The
list is read off the trace of the run by `BusState.accepted`, which looks at
the subscription and at the queue in the state each publish was made in.
-/

namespace WebSocketPatterns.PubSub.BusState

open Transition

variable {P : Type*}

/-- The messages the run published to a subscriber's queue while it was subscribed, neither
skipped as lagging nor full. -/
def acceptedAll (acts : List (BusAction P)) (r : Nat) : List (Message P) :=
  (trace step start acts).filterMap fun visit => visit.1.accepted r visit.2

/-- One action moves a message from the queue to the consumer or adds an accepted one. -/
theorem Inv.delivery_step {σ τ : BusState P} (inv : σ.Inv) {a : BusAction P}
    (h : σ.step a = some τ) (r : Nat) :
    τ.yielded r ++ τ.buffered r =
      σ.yielded r ++ σ.buffered r ++ (σ.accepted r a).toList := by
  cases a with
  | subscribe channel subscriberId maxQueueSize =>
      obtain rfl := Option.some.inj h
      by_cases hr : r = σ.subscribers.length
      · obtain ⟨_, _, hi⟩ := inv.known r hr.ge
        simp [accepted, yielded, buffered, InMemoryMessageBus.subscribe, inv.counted, hr ▸ hi, hr]
      · simp [accepted, yielded, buffered, InMemoryMessageBus.subscribe, inv.counted, hr]
  | publish channel payload publisherId skipLagging now =>
      obtain rfl := Option.some.inj h
      have hbuf := inv.publish_buffered channel payload publisherId skipLagging now r
      simp only [yielded, buffered, List.append_assoc] at hbuf ⊢
      rw [hbuf]
  | unsubscribe i =>
      obtain ⟨sub, _, _, rfl⟩ := inv.step_unsubscribe h
      by_cases hr : r = sub.queue
      · subst hr
        simp [accepted, yielded, buffered, InMemoryMessageBus.unsubscribe_queues]
      · simp [accepted, yielded, buffered, InMemoryMessageBus.unsubscribe_queues, hr]
  | closeChannel channel =>
      obtain rfl := Option.some.inj h
      obtain ⟨_, _, _, _, hqueues⟩ := inv.closeChannel_spec channel
      simp only [accepted, yielded, buffered, hqueues]
      split <;> simp
  | consume i =>
      obtain ⟨item, q, _, hget, rfl⟩ := step_consume h
      obtain ⟨hitems, _⟩ := (AsyncQueue.getNowait_eq_some_iff _ _ _).mp hget
      by_cases hr : r = i
      · subst hr
        cases item <;> simp [accepted, yielded, buffered, Consumer.resume, hitems]
      · simp [accepted, yielded, buffered, hr]

/-- After every run, for every subscriber: yielded then buffered is exactly what was
accepted, in order, each publish once. -/
theorem delivery_of_run {acts : List (BusAction P)} {σ : BusState P}
    (run : Run step start acts σ) (r : Nat) :
    σ.yielded r ++ σ.buffered r = acceptedAll acts r := by
  induction run with
  | nil => rfl
  | snoc run h ih =>
      rw [(inv_of_run run).delivery_step h r, ih, acceptedAll, acceptedAll, run.trace_snoc,
        List.filterMap_append, List.filterMap_cons, List.filterMap_nil]
      cases accepted _ r _ <;> rfl

/-- Every consumer has yielded, and every queue holds, the accepted messages in publish
order; and a publish returns how many queues gained its message. -/
theorem ordered_exactly_once_delivery [DecidableEq P] {acts : List (BusAction P)}
    {σ : BusState P} (run : Run step start acts σ) :
    (∀ r, r < σ.subscribers.length → σ.yielded r ++ σ.buffered r = acceptedAll acts r) ∧
    ∀ channel payload publisherId skipLagging now,
      let result := σ.bus.publish channel payload publisherId skipLagging now
      result.2 = (List.range σ.subscribers.length).countP fun r =>
        decide ((result.1.queues r).items =
          (σ.bus.queues r).items ++ [some ⟨channel, payload, now, publisherId⟩]) := by
  have inv := inv_of_run run
  refine ⟨fun r _ => delivery_of_run run r, ?_⟩
  intro channel payload publisherId skipLagging now result
  rw [inv.publish_delivered]
  apply List.countP_congr
  intro r _
  have hitems := inv.publish_items channel payload publisherId skipLagging now r
  rw [decide_eq_true_eq, hitems, List.append_cancel_left_eq]
  cases ha : σ.accepted r (.publish channel payload publisherId skipLagging now) with
  | none => simp
  | some msg =>
      obtain ⟨_, rfl⟩ :=
        (inv.accepted_eq_some_iff channel payload publisherId skipLagging now r msg).mp ha
      simp

/-- Two of four publishes are buffered, one is skipped as lagging, one comes too late. -/
def feedActs : List (BusAction Nat) :=
  [.subscribe "feed" "s1" 2, .publish "feed" 1 "" true 0, .publish "feed" 2 "" true 0,
    .publish "feed" 2 "" false 0, .consume 0, .publish "other" 7 "" true 0, .unsubscribe 0,
    .publish "feed" 3 "" false 0, .consume 0, .consume 0]

theorem ordered_exactly_once_delivery_feed :
    let σ := (exec step start feedActs).get (by decide)
    σ.yielded 0 ++ σ.buffered 0 = [⟨"feed", 1, 0, ""⟩, ⟨"feed", 2, 0, ""⟩] ∧
      (σ.bus.publish "feed" 4 "" false 0).2 = 0 := by
  have run := run_get (show (exec step start feedActs).isSome from by decide)
  have h := ordered_exactly_once_delivery run
  exact ⟨(h.1 0 (by decide)).trans (by decide), (h.2 "feed" 4 "" false 0).trans (by decide)⟩

end WebSocketPatterns.PubSub.BusState
