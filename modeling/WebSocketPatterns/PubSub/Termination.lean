import WebSocketPatterns.PubSub.BusRuns

/-!
# Termination of consumers

`unsubscribe` suppresses `QueueFull` when it puts the sentinel, so the sentinel
is lost exactly when the queue is full at the first unsubscription: after it no
message is added, and before it the queue holds no sentinel.
-/

namespace WebSocketPatterns.PubSub.BusState

open Transition

variable {P : Type*}

/-- What an unsubscribed subscriber's consumer is promised: it yields exactly what was
buffered when it was stopped, a sentinel waits behind the messages until it has ended, and
its own steps alone bring it to the end. -/
structure StopsCleanly (σ : BusState P) (r : Nat) (s : Stop P) : Prop where
  conserved : σ.yielded r ++ σ.buffered r = s.yielded ++ s.buffered
  sentinel : (σ.consumers r).ended = false →
    ∃ k, (σ.bus.queues r).items = (σ.buffered r).map some ++ List.replicate (k + 1) none
  ends : ∃ n τ, Run step σ (List.replicate n (.consume r)) τ ∧
    (τ.consumers r).ended = true ∧ τ.yielded r = s.yielded ++ s.buffered

/-- Every subscriber that was unsubscribed is served as promised. -/
def AllStopCleanly (σ : BusState P) : Prop :=
  ∀ r s, σ.stopped r = some s → σ.StopsCleanly r s

/-- The action unsubscribes no subscriber for the first time while its queue is full. -/
def RoomForSentinel (σ : BusState P) (a : BusAction P) : Prop :=
  ∀ r ∈ σ.stops a, σ.stopped r = none → ¬ (σ.bus.queues r).full

instance (σ : BusState P) (a : BusAction P) : Decidable (σ.RoomForSentinel a) :=
  inferInstanceAs (Decidable (∀ _ ∈ _, _ → _))

/-- With a sentinel behind its messages a consumer yields them all and ends. -/
theorem exec_consume (r : Nat) (rest : List (Option (Message P))) (msgs : List (Message P)) :
    ∀ σ : BusState P, (σ.consumers r).ended = false →
      (σ.bus.queues r).items = msgs.map some ++ none :: rest →
      ∃ τ, exec step σ (List.replicate (msgs.length + 1) (.consume r)) = some τ ∧
        (τ.consumers r).ended = true ∧ τ.yielded r = σ.yielded r ++ msgs := by
  induction msgs with
  | nil =>
      intro σ hrun hitems
      obtain ⟨q, hget, _⟩ := AsyncQueue.getNowait_of_items hitems
      refine ⟨{ σ with
        bus := { σ.bus with queues := Function.update σ.bus.queues r q }
        consumers := Function.update σ.consumers r ((σ.consumers r).resume none) }, ?_, ?_, ?_⟩
      · simp [exec, step, hrun, hget]
      · simp [Consumer.resume]
      · simp [yielded, Consumer.resume]
  | cons msg msgs ih =>
      intro σ hrun hitems
      obtain ⟨q, hget, hq⟩ := AsyncQueue.getNowait_of_items hitems
      obtain ⟨τ, hexec, hend, hy⟩ := ih
        { σ with
          bus := { σ.bus with queues := Function.update σ.bus.queues r q }
          consumers := Function.update σ.consumers r ((σ.consumers r).resume (some msg)) }
        (by simp [Consumer.resume, hrun]) (by simpa using hq)
      refine ⟨τ, ?_, hend, by simpa [yielded, Consumer.resume] using hy⟩
      rw [List.length_cons, List.replicate_succ, exec]
      simpa [step, hrun, hget] using hexec

/-- On top of the invariant, the promise is that a running consumer has a sentinel. -/
theorem Inv.stopsCleanly_iff {σ : BusState P} (inv : σ.Inv) {r : Nat} {s : Stop P}
    (hs : σ.stopped r = some s) :
    σ.StopsCleanly r s ↔
      ((σ.consumers r).ended = false → none ∈ (σ.bus.queues r).items) := by
  constructor
  · intro h hrun
    obtain ⟨k, hk⟩ := h.sentinel hrun
    rw [hk]
    simp
  · intro h
    have hkept := inv.kept r s hs
    have hsentinel : (σ.consumers r).ended = false →
        ∃ k, (σ.bus.queues r).items = (σ.buffered r).map some ++ List.replicate (k + 1) none := by
      intro hrun
      obtain ⟨k, hk⟩ := inv.ordered r
      cases k with
      | succ k => exact ⟨k, hk⟩
      | zero =>
          have hnone := h hrun
          rw [hk] at hnone
          simp at hnone
    refine ⟨hkept, hsentinel, ?_⟩
    cases hrun : (σ.consumers r).ended with
    | true =>
        refine ⟨0, σ, Run.nil, hrun, ?_⟩
        rw [← hkept, inv.drained r hrun, List.append_nil]
    | false =>
        obtain ⟨k, hk⟩ := hsentinel hrun
        obtain ⟨τ, hexec, hend, hy⟩ :=
          exec_consume r (List.replicate k none) (σ.buffered r) σ hrun
            (by rw [hk, List.replicate_succ])
        exact ⟨_, τ, run_iff_exec.mpr hexec, hend, hy.trans hkept⟩

section Steps

variable {σ τ : BusState P} (inv : σ.Inv) {a : BusAction P} (h : σ.step a = some τ)
include inv h

/-- The record of first unsubscriptions grows by those the action makes. -/
theorem Inv.step_stopped : τ.stopped = σ.markStopped (σ.stops a) := by
  have hnone : σ.markStopped [] = σ.stopped := by
    funext r
    simp [markStopped]
  cases a with
  | subscribe channel subscriberId maxQueueSize =>
      obtain rfl := Option.some.inj h
      exact hnone.symm
  | publish channel payload publisherId skipLagging now =>
      obtain rfl := Option.some.inj h
      exact hnone.symm
  | unsubscribe i =>
      obtain ⟨sub, _, rfl, rfl⟩ := inv.step_unsubscribe h
      rfl
  | closeChannel channel =>
      obtain rfl := Option.some.inj h
      rfl
  | consume i =>
      obtain ⟨_, _, _, _, rfl⟩ := step_consume h
      exact hnone.symm

/-- A subscriber the action unsubscribes is offered the sentinel; its consumer does not run. -/
theorem Inv.step_of_mem_stops {r : Nat} (hr : r ∈ σ.stops a) :
    τ.bus.queues r = InMemoryMessageBus.offer (σ.bus.queues r) none ∧
      τ.consumers r = σ.consumers r := by
  cases a with
  | subscribe channel subscriberId maxQueueSize => simp [stops] at hr
  | publish channel payload publisherId skipLagging now => simp [stops] at hr
  | unsubscribe i =>
      obtain ⟨sub, _, rfl, rfl⟩ := inv.step_unsubscribe h
      obtain rfl := List.mem_singleton.mp hr
      simp [InMemoryMessageBus.unsubscribe_queues]
  | closeChannel channel =>
      obtain rfl := Option.some.inj h
      obtain ⟨_, _, _, _, hqueues⟩ := inv.closeChannel_spec channel
      exact ⟨(hqueues r).trans (if_pos hr), rfl⟩
  | consume i => simp [stops] at hr

/-- Once a sentinel is in the queue of a stopped subscriber it leaves only to end the consumer. -/
theorem Inv.step_sentinel {r : Nat} (hs : σ.stopped r ≠ none)
    (hsent : (σ.consumers r).ended = false → none ∈ (σ.bus.queues r).items)
    (hrun : (τ.consumers r).ended = false) : none ∈ (τ.bus.queues r).items := by
  by_cases hr : r ∈ σ.stops a
  · obtain ⟨hq, hc⟩ := inv.step_of_mem_stops h hr
    rw [hc] at hrun
    rw [hq]
    by_cases hfull : (σ.bus.queues r).full
    · rw [InMemoryMessageBus.offer_of_full none hfull]
      exact hsent hrun
    · rw [InMemoryMessageBus.offer_items none hfull]
      simp
  cases a with
  | subscribe channel subscriberId maxQueueSize =>
      obtain rfl := Option.some.inj h
      have hne : r ≠ σ.subscribers.length := fun he => hs (inv.known r he.ge).1
      simpa [InMemoryMessageBus.subscribe, inv.counted, hne] using hsent hrun
  | publish channel payload publisherId skipLagging now =>
      obtain rfl := Option.some.inj h
      rw [inv.publish_items]
      exact List.mem_append_left _ (hsent hrun)
  | unsubscribe i =>
      obtain ⟨sub, _, rfl, rfl⟩ := inv.step_unsubscribe h
      have hne : r ≠ sub.queue := by simpa [stops] using hr
      simpa [InMemoryMessageBus.unsubscribe_queues, hne] using hsent hrun
  | closeChannel channel =>
      obtain rfl := Option.some.inj h
      obtain ⟨_, _, _, _, hqueues⟩ := inv.closeChannel_spec channel
      have hr' : r ∉ (σ.bus.subs channel).map Subscriber.queue := hr
      rw [hqueues, if_neg hr']
      exact hsent hrun
  | consume i =>
      obtain ⟨item, q, hend, hget, rfl⟩ := step_consume h
      obtain ⟨hitems, _⟩ := (AsyncQueue.getNowait_eq_some_iff _ _ _).mp hget
      by_cases hi : r = i
      · subst hi
        have hmem := hsent hend
        rw [hitems] at hmem
        cases item with
        | none => simp [Consumer.resume] at hrun
        | some msg => simpa using hmem
      · simpa [hi] using hsent (by simpa [hi] using hrun)

/-- A first unsubscription leaves a sentinel exactly when the queue had room. -/
theorem Inv.step_first_stop {r : Nat} (hr : r ∈ σ.stops a) (hs : σ.stopped r = none) :
    (τ.consumers r).ended = false ∧
      (none ∈ (τ.bus.queues r).items ↔ ¬ (σ.bus.queues r).full) := by
  obtain ⟨hq, hc⟩ := inv.step_of_mem_stops h hr
  obtain ⟨hrun, hnone⟩ := inv.running r hs
  refine ⟨by rw [hc]; exact hrun, ?_⟩
  rw [hq]
  by_cases hfull : (σ.bus.queues r).full
  · simp [InMemoryMessageBus.offer_of_full none hfull, hfull, hnone]
  · simp [InMemoryMessageBus.offer_items none hfull, hfull]

/-- From a state that keeps the promise, a step keeps it exactly when it leaves every
subscriber it stops room for the sentinel. -/
theorem Inv.step_allStopCleanly_iff (hclean : σ.AllStopCleanly) :
    τ.AllStopCleanly ↔ σ.RoomForSentinel a := by
  have inv' : τ.Inv := inv.step h
  have hstopped : ∀ r s, τ.stopped r = some s ↔ σ.stopped r = some s ∨
      σ.stopped r = none ∧ r ∈ σ.stops a ∧ s = ⟨σ.yielded r, σ.buffered r⟩ := by
    intro r s
    rw [inv.step_stopped h]
    exact markStopped_eq_some_iff σ (σ.stops a) r s
  constructor
  · intro hclean' r hr hs
    have hnew := (hstopped r _).mpr (Or.inr ⟨hs, hr, rfl⟩)
    obtain ⟨hrun, hiff⟩ := inv.step_first_stop h hr hs
    exact hiff.mp ((inv'.stopsCleanly_iff hnew).mp (hclean' r _ hnew) hrun)
  · intro hroom r s hs
    rw [inv'.stopsCleanly_iff hs]
    intro hrun
    rcases (hstopped r s).mp hs with hold | ⟨hnone, hr, _⟩
    · have hsent := (inv.stopsCleanly_iff hold).mp (hclean r s hold)
      exact inv.step_sentinel h (by simp [hold]) hsent hrun
    · exact (inv.step_first_stop h hr hnone).2.mpr (hroom r hr hnone)

end Steps

/-- In every state of a run the unsubscribed subscribers are served as promised if and only
if no step of the run unsubscribes a subscriber for the first time while its queue is full. -/
theorem consumers_terminate_iff {acts : List (BusAction P)} {σ : BusState P}
    (run : Run step start acts σ) :
    Throughout step start (fun _ σ => σ.AllStopCleanly) acts ↔
      EachStep step start (fun _ σ a => σ.RoomForSentinel a) acts := by
  apply throughout_iff_eachStep ?_ ?_ run
  · intro r s hs
    simp [start] at hs
  · intro _ _ _ _ run hclean h
    exact (inv_of_run run).step_allStopCleanly_iff h hclean

/-- The queue has room for a sentinel: the consumer yields its message and ends. -/
def roomActs : List (BusAction Nat) :=
  [.subscribe "ch" "s1" 2, .publish "ch" 1 "" false 0, .unsubscribe 0, .consume 0, .consume 0]

theorem consumers_terminate_room :
    Throughout step start (fun _ σ => σ.AllStopCleanly) roomActs := by
  have run := run_get (show (exec step start roomActs).isSome from by decide)
  apply (consumers_terminate_iff run).mpr
  decide

/-- The only buffered message fills the queue when its subscriber is unsubscribed. -/
def fullActs : List (BusAction Nat) :=
  [.subscribe "ch" "s1" 1, .publish "ch" 1 "" false 0, .unsubscribe 0, .consume 0]

/-- The consumer has yielded the message, has not ended, and waits on an empty queue. -/
theorem consumer_waits_forever :
    ∃ σ : BusState Nat, Run step start fullActs σ ∧ ¬ σ.AllStopCleanly ∧
      (σ.consumers 0).ended = false ∧ (σ.bus.queues 0).items = [] := by
  refine ⟨_, run_get (by decide), ?_, by decide, by decide⟩
  intro hclean
  have hstop := hclean 0 _ (Option.some_get (by decide)).symm
  obtain ⟨k, hk⟩ := hstop.sentinel (by decide)
  have hempty := hk.symm.trans (by decide : _ = [])
  simp at hempty

end WebSocketPatterns.PubSub.BusState
