import WebSocketPatterns.PubSub.Termination

/-!
# Publishing with the default

`skip_lagging=True` is the default of `publish`. A publish that skips lagging
subscribers adds to a queue only below `int(max_queue_size * 0.8)`, so as long
as all publishes are of this kind no registered subscriber's queue is ever
full: `QueueFull` is not met by a message, nor by the sentinel of the first
unsubscription.
-/

namespace WebSocketPatterns.PubSub

variable {P : Type*}

/-- Every action but a publish with `skip_lagging=False`. -/
def BusAction.skipsLagging : BusAction P → Bool
  | .publish _ _ _ skipLagging _ => skipLagging
  | _ => true

/-- The depth at which `is_lagging` begins to hold; zero where the queue is unbounded. -/
def Subscriber.lagThreshold (sub : Subscriber) : Nat := ((sub.maxQueueSize * 4).tdiv 5).toNat

theorem InMemoryMessageBus.isLagging_iff_lagThreshold (bus : InMemoryMessageBus P)
    (sub : Subscriber) : bus.isLagging sub = true ↔ sub.lagThreshold ≤ bus.queueDepth sub := by
  rw [InMemoryMessageBus.isLagging_iff, Subscriber.lagThreshold, Int.toNat_le]
  rfl

/-- A bounded queue that holds no more than its threshold has room. -/
theorem Subscriber.lagThreshold_lt {sub : Subscriber} (hpos : 0 < sub.maxQueueSize) :
    (sub.lagThreshold : Int) < sub.maxQueueSize := by
  rw [Subscriber.lagThreshold, Int.tdiv_eq_ediv_of_nonneg (by omega)]
  omega

namespace BusState

open Transition

/-- No registered subscriber has more messages waiting than its threshold. -/
def WithinThreshold (σ : BusState P) : Prop :=
  ∀ sub ∈ σ.subscribers, σ.stopped sub.queue = none → σ.bus.queueDepth sub ≤ sub.lagThreshold

section Room

variable {σ τ : BusState P} (hwithin : σ.WithinThreshold)
  (hmax : ∀ sub ∈ σ.subscribers, (σ.bus.queues sub.queue).maxsize = sub.maxQueueSize)
include hwithin hmax

/-- Below the threshold no registered subscriber's queue is full. -/
theorem WithinThreshold.not_full {sub : Subscriber} (hsub : sub ∈ σ.subscribers)
    (hlive : σ.stopped sub.queue = none) : ¬ (σ.bus.queues sub.queue).full := by
  rintro ⟨hpos, hle⟩
  rw [hmax sub hsub] at hpos hle
  have hdepth : (σ.bus.queues sub.queue).qsize ≤ sub.lagThreshold := hwithin sub hsub hlive
  have hlt := Subscriber.lagThreshold_lt hpos
  omega

/-- The first unsubscription of a subscriber within its threshold finds room. -/
theorem WithinThreshold.roomForSentinel (inv : σ.Inv) {a : BusAction P}
    (h : σ.step a = some τ) : σ.RoomForSentinel a := by
  intro r hr hlive
  cases a with
  | unsubscribe i =>
      obtain ⟨sub, hsub, rfl, _⟩ := inv.step_unsubscribe h
      obtain rfl := List.mem_singleton.mp hr
      exact hwithin.not_full hmax hsub hlive
  | closeChannel channel =>
      obtain ⟨sub, hsub, rfl⟩ := List.mem_map.mp hr
      have hin := ((inv.mem_subs_iff channel sub).mp hsub).1
      exact hwithin.not_full hmax hin hlive
  | subscribe channel subscriberId maxQueueSize => simp [stops] at hr
  | publish channel payload publisherId skipLagging now => simp [stops] at hr
  | consume i => simp [stops] at hr

/-- Within the thresholds a publish that skips lagging subscribers meets no full queue: it
reaches every registered subscriber that is not lagging. -/
theorem WithinThreshold.publish_delivered (inv : σ.Inv) (channel : String) (payload : P)
    (publisherId : String) (now : ℚ) :
    (σ.bus.publish channel payload publisherId true now).2 =
      (σ.bus.subs channel).countP fun sub => !σ.bus.isLagging sub := by
  obtain ⟨hcount, _⟩ := InMemoryMessageBus.publishLoop_spec
    ⟨channel, payload, now, publisherId⟩ true (σ.bus.subs channel) σ.bus 0
    (inv.subs_queues_nodup channel)
  rw [InMemoryMessageBus.publish, hcount, Nat.zero_add]
  apply List.countP_congr
  intro sub hsub
  obtain ⟨hin, _, hlive⟩ := (inv.mem_subs_iff channel sub).mp hsub
  have hroom := hwithin.not_full hmax hin hlive
  simp [InMemoryMessageBus.accepts_iff, hroom]

end Room

section Steps

variable {σ τ : BusState P} (inv : σ.Inv)
include inv

/-- Only a publish adds to the queue of a subscriber that stays registered, and one that skips
lagging subscribers does so below the threshold. -/
theorem Inv.step_queueDepth {a : BusAction P} (h : σ.step a = some τ)
    (hskip : a.skipsLagging = true) {sub : Subscriber} (hsub : sub ∈ σ.subscribers)
    (hstays : sub.queue ∉ σ.stops a) (hdepth : σ.bus.queueDepth sub ≤ sub.lagThreshold) :
    τ.bus.queueDepth sub ≤ sub.lagThreshold := by
  unfold InMemoryMessageBus.queueDepth AsyncQueue.qsize at hdepth ⊢
  cases a with
  | subscribe channel subscriberId maxQueueSize =>
      obtain rfl := Option.some.inj h
      have hne : sub.queue ≠ σ.bus.nextQueue := inv.counted ▸ (inv.queue_lt hsub).ne
      rwa [InMemoryMessageBus.subscribe_queues, if_neg hne]
  | publish channel payload publisherId skipLagging now =>
      obtain rfl := Option.some.inj h
      obtain rfl : skipLagging = true := hskip
      rw [inv.publish_items_of_mem channel payload publisherId true now hsub, List.length_append]
      split
      · rename_i haccepted
        have hnot : ¬ sub.lagThreshold ≤ σ.bus.queueDepth sub := fun hle =>
          haccepted.2.2.1 ⟨rfl, (σ.bus.isLagging_iff_lagThreshold sub).mpr hle⟩
        exact Nat.lt_of_not_le hnot
      · simpa using hdepth
  | unsubscribe i =>
      obtain ⟨other, _, rfl, rfl⟩ := inv.step_unsubscribe h
      have hne : sub.queue ≠ other.queue := by simpa [stops] using hstays
      rwa [InMemoryMessageBus.unsubscribe_queues, Function.update_of_ne hne]
  | closeChannel channel =>
      obtain rfl := Option.some.inj h
      obtain ⟨_, _, _, _, hqueues⟩ := inv.closeChannel_spec channel
      change sub.queue ∉ (σ.bus.subs channel).map Subscriber.queue at hstays
      rwa [hqueues, if_neg hstays]
  | consume i =>
      obtain ⟨item, q, _, hget, rfl⟩ := step_consume h
      obtain ⟨hitems, _⟩ := (AsyncQueue.getNowait_eq_some_iff _ _ _).mp hget
      by_cases hi : sub.queue = i
      · subst hi
        rw [hitems, List.length_cons] at hdepth
        simpa using (Nat.le_succ _).trans hdepth
      · simpa [hi] using hdepth

theorem Inv.step_withinThreshold {a : BusAction P} (h : σ.step a = some τ)
    (hskip : a.skipsLagging = true) (hwithin : σ.WithinThreshold) : τ.WithinThreshold := by
  intro sub hsub hlive
  rw [inv.step_stopped h, markStopped_eq_none_iff] at hlive
  have hold : sub ∈ σ.subscribers → τ.bus.queueDepth sub ≤ sub.lagThreshold := fun hmem =>
    inv.step_queueDepth h hskip hmem hlive.2 (hwithin sub hmem hlive.1)
  rcases inv.step_subscribers h with ⟨_, hsame⟩ | ⟨_, _, _, _, hadded, hqueue⟩
  · exact hold (hsame ▸ hsub)
  · rw [hadded, List.mem_append, List.mem_singleton] at hsub
    rcases hsub with hmem | rfl
    · exact hold hmem
    · rw [InMemoryMessageBus.queueDepth, hqueue]
      exact Nat.zero_le _

end Steps

theorem within_and_clean_of_run {acts : List (BusAction P)} {σ : BusState P}
    (run : Run step start acts σ) (hskip : ∀ a ∈ acts, a.skipsLagging = true) :
    σ.WithinThreshold ∧ σ.AllStopCleanly := by
  induction run with
  | nil =>
      constructor
      · intro sub hsub
        simp [start] at hsub
      · intro r s hs
        simp [start] at hs
  | snoc run h ih =>
      obtain ⟨hwithin, hclean⟩ := ih fun a ha => hskip a (List.mem_append_left _ ha)
      have inv := inv_of_run run
      have hroom := hwithin.roomForSentinel (maxsize_of_run run) inv h
      refine ⟨inv.step_withinThreshold h (hskip _ (by simp)) hwithin, ?_⟩
      exact (inv.step_allStopCleanly_iff h hclean).mpr hroom

/-- In every run whose publishes all skip lagging subscribers, the consumer of every
unsubscribed subscriber yields what was buffered for it and ends; no subscriber that is still
registered has more than the truncated 80% of its bound waiting, or a full queue; and a publish
reaches every registered subscriber that is not lagging. -/
theorem default_publishes_stop_cleanly {acts : List (BusAction P)} {σ : BusState P}
    (run : Run step start acts σ) (hskip : ∀ a ∈ acts, a.skipsLagging = true) :
    σ.AllStopCleanly ∧
      (∀ sub ∈ σ.subscribers, σ.stopped sub.queue = none →
        σ.bus.queueDepth sub ≤ ((sub.maxQueueSize * 4).tdiv 5).toNat ∧
          ¬ (σ.bus.queues sub.queue).full) ∧
      ∀ channel payload publisherId now,
        (σ.bus.publish channel payload publisherId true now).2 =
          (σ.bus.subs channel).countP fun sub => !σ.bus.isLagging sub := by
  obtain ⟨hwithin, hclean⟩ := within_and_clean_of_run run hskip
  have inv := inv_of_run run
  have hmax := maxsize_of_run run
  refine ⟨hclean, ?_, ?_⟩
  · intro sub hsub hlive
    exact ⟨hwithin sub hsub hlive, hwithin.not_full hmax hsub hlive⟩
  · intro channel payload publisherId now
    exact hwithin.publish_delivered hmax inv channel payload publisherId now

/-- A queue of two takes one message by default and is unsubscribed with it unread. -/
def defaultActs : List (BusAction Nat) :=
  [.subscribe "ch" "s1" 2, .subscribe "ch" "s2" 1, .publish "ch" 1 "" true 0,
    .publish "ch" 2 "" true 0, .unsubscribe 0]

theorem default_publishes_stop_cleanly_unread :
    ∃ σ, Run step start defaultActs σ ∧ σ.AllStopCleanly ∧ (σ.buffered 0).length = 1 := by
  have run := run_get (show (exec step start defaultActs).isSome from by decide)
  exact ⟨_, run, (default_publishes_stop_cleanly run (by decide)).1, by decide⟩

end BusState

end WebSocketPatterns.PubSub
