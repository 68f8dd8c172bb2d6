import WebSocketPatterns.PubSub.BusRuns

/-!
# The threshold of lag skipping

A lagging subscriber is documented as one whose queue is more than 80% full.
`is_lagging` truncates 80% of the bound to an integer and compares with `>=`, so
it also holds at exactly the truncated threshold, which for a bound of one is
the empty queue.
-/

namespace WebSocketPatterns.PubSub.BusState

open Transition

variable {P : Type*}

/-- The publish leaves the subscriber's queue as it is. -/
def Misses (σ : BusState P) (sub : Subscriber) (channel : String) (payload : P)
    (publisherId : String) (skipLagging : Bool) (now : ℚ) : Prop :=
  ((σ.bus.publish channel payload publisherId skipLagging now).1.queues sub.queue).items =
    (σ.bus.queues sub.queue).items

instance [DecidableEq P] (σ : BusState P) (sub : Subscriber) (channel : String) (payload : P)
    (publisherId : String) (skipLagging : Bool) (now : ℚ) :
    Decidable (σ.Misses sub channel payload publisherId skipLagging now) :=
  inferInstanceAs (Decidable (_ = _))

/-- A publish that skips lagging subscribers is missed by exactly the registered subscribers
whose queues are more than 80% full. -/
def SkipsAsDocumented (σ : BusState P) : BusAction P → Prop
  | .publish channel payload publisherId true now =>
      ∀ sub ∈ σ.bus.subs channel, 1 ≤ sub.maxQueueSize →
        (σ.Misses sub channel payload publisherId true now ↔
          4 * sub.maxQueueSize < 5 * σ.bus.queueDepth sub)
  | _ => True

/-- No registered subscriber's queue holds exactly the truncated 80% of its bound. -/
def OffThreshold (σ : BusState P) : BusAction P → Prop
  | .publish channel _ _ true _ =>
      ∀ sub ∈ σ.bus.subs channel, 1 ≤ sub.maxQueueSize →
        (σ.bus.queueDepth sub : Int) ≠ 4 * sub.maxQueueSize / 5
  | _ => True

instance (σ : BusState P) (a : BusAction P) : Decidable (σ.OffThreshold a) := by
  unfold OffThreshold
  split <;> infer_instance

/-- The truncated threshold, met without being exceeded, is the only disagreement. -/
theorem truncated_le_iff {m : Int} (hm : 1 ≤ m) (depth : Nat) :
    (m * 4).tdiv 5 ≤ depth ↔ 4 * m < 5 * depth ∨ (depth : Int) = 4 * m / 5 := by
  rw [Int.tdiv_eq_ediv_of_nonneg (by omega)]
  omega

section Steps

variable {σ : BusState P} (inv : σ.Inv) {sub : Subscriber} {channel : String}
  (hsub : sub ∈ σ.bus.subs channel)
include inv hsub

/-- A registered subscriber misses a publish as lagging or because its queue is full. -/
theorem Inv.misses_iff (payload : P) (publisherId : String) (skipLagging : Bool) (now : ℚ) :
    σ.Misses sub channel payload publisherId skipLagging now ↔
      (skipLagging = true ∧ σ.bus.isLagging sub = true) ∨ (σ.bus.queues sub.queue).full := by
  obtain ⟨hin, hc, hlive⟩ := (inv.mem_subs_iff channel sub).mp hsub
  rw [Misses, inv.publish_items_of_mem channel payload publisherId skipLagging now hin,
    List.append_right_eq_self]
  split
  · rename_i haccepted
    obtain ⟨_, _, hskip, hroom⟩ := haccepted
    simp [hskip, hroom]
  · rename_i hrejected
    simp only [true_iff]
    by_contra hneither
    exact hrejected ⟨hc, hlive, not_or.mp hneither⟩

/-- With lag skipping a full queue misses nothing that a lagging one would not. -/
theorem Inv.misses_lagging_iff (hpos : 1 ≤ sub.maxQueueSize)
    (hmax : (σ.bus.queues sub.queue).maxsize = sub.maxQueueSize) (payload : P)
    (publisherId : String) (now : ℚ) :
    σ.Misses sub channel payload publisherId true now ↔
      4 * sub.maxQueueSize < 5 * σ.bus.queueDepth sub ∨
        (σ.bus.queueDepth sub : Int) = 4 * sub.maxQueueSize / 5 := by
  have hfull : (σ.bus.queues sub.queue).full →
      4 * sub.maxQueueSize < 5 * σ.bus.queueDepth sub := by
    rintro ⟨_, hle⟩
    rw [hmax] at hle
    change sub.maxQueueSize ≤ σ.bus.queueDepth sub at hle
    omega
  rw [inv.misses_iff hsub, InMemoryMessageBus.isLagging_iff]
  change (true = true ∧ (sub.maxQueueSize * 4).tdiv 5 ≤ σ.bus.queueDepth sub) ∨ _ ↔ _
  rw [truncated_le_iff hpos]
  constructor
  · rintro (⟨_, hlag⟩ | h)
    · exact hlag
    · exact Or.inl (hfull h)
  · intro hlag
    exact Or.inl ⟨rfl, hlag⟩

end Steps

/-- A publish in a reachable state skips as documented off the threshold, and only there. -/
theorem Inv.skipsAsDocumented_iff {σ : BusState P} (inv : σ.Inv)
    (hmax : ∀ sub ∈ σ.subscribers, (σ.bus.queues sub.queue).maxsize = sub.maxQueueSize)
    (a : BusAction P) : σ.SkipsAsDocumented a ↔ σ.OffThreshold a := by
  cases a with
  | publish channel payload publisherId skipLagging now =>
      cases skipLagging with
      | false => exact Iff.rfl
      | true =>
          apply forall₂_congr
          intro sub hsub
          apply imp_congr_right
          intro hpos
          have hin := ((inv.mem_subs_iff channel sub).mp hsub).1
          rw [inv.misses_lagging_iff hsub hpos (hmax sub hin)]
          omega
  | subscribe channel subscriberId maxQueueSize => exact Iff.rfl
  | unsubscribe r => exact Iff.rfl
  | closeChannel channel => exact Iff.rfl
  | consume r => exact Iff.rfl

/-- Every publish of a run skips as documented if and only if at none of them a registered
subscriber's queue holds exactly the truncated 80% of its bound. -/
theorem skips_as_documented_iff {acts : List (BusAction P)} {σ : BusState P}
    (run : Run step start acts σ) :
    EachStep step start (fun _ σ a => σ.SkipsAsDocumented a) acts ↔
      EachStep step start (fun _ σ a => σ.OffThreshold a) acts := by
  apply eachStep_congr ?_ run
  intro _ σ a _ run _
  exact (inv_of_run run).skipsAsDocumented_iff (maxsize_of_run run) a

/-- A queue of ten at seven messages takes one more and at nine misses one. -/
def offThresholdActs : List (BusAction Nat) :=
  .subscribe "ch" "s" 10 :: (List.range 7).map (fun i => .publish "ch" i "" false 0) ++
    [.publish "ch" 7 "" true 0, .publish "ch" 8 "" false 0, .publish "ch" 9 "" true 0]

theorem skips_as_documented_off :
    EachStep step start (fun _ σ a => σ.SkipsAsDocumented a) offThresholdActs := by
  have run := run_get (show (exec step start offThresholdActs).isSome from by decide)
  apply (skips_as_documented_iff run).mpr
  decide

/-- A queue of one is skipped while it is empty. -/
theorem empty_queue_skipped :
    ∃ σ : BusState Nat, Run step start [.subscribe "ch" "s" 1] σ ∧
      (σ.bus.subs "ch").map σ.bus.queueDepth = [0] ∧
      ¬ σ.SkipsAsDocumented (.publish "ch" 1 "" true 0) := by
  refine ⟨_, run_get (by decide), by decide, ?_⟩
  intro hskips
  have hmisses := (hskips ⟨"s", "ch", 0, 1⟩ (by decide) le_rfl).mp (by decide)
  exact absurd hmisses (by decide)

end WebSocketPatterns.PubSub.BusState
