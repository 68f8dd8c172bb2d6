import WebSocketPatterns.Backpressure.GlobalStats
import WebSocketPatterns.Backpressure.HighWater
import Mathlib.Tactic.NormNum

/-!
# The warning of lagging connections

A queue loses or delays a message only when it is full, and
`lagging_connections` compares depths with a fraction of the bound, a float
product that is truncated to a number of messages. Whether a connection is
listed before its next message is lost, and whether it is listed before there is
any danger, depend on that product alone, however it was rounded.
-/

namespace WebSocketPatterns.Backpressure

open Transition

variable {α : Type*}

namespace SendQueue

/-- A call of `enqueue` does not just add its message: it evicts, drops, refuses or waits. -/
def Overflows (q : SendQueue α) (message : α) : Prop :=
  (q.enqueue message).entered = false ∨ (q.enqueue message).evicted ≠ none

theorem overflows_iff {q : SendQueue α} (hmax : 0 < q.maxSize) (message : α) :
    q.Overflows message ↔ q.maxSize ≤ q.depth := by
  rw [depth_eq, Overflows]
  constructor
  · intro hover
    by_contra hroom
    rw [not_le] at hroom
    rcases hover with hkept | hevicted
    · rw [enqueue_entered hroom] at hkept
      exact absurd hkept (by decide)
    · cases q.enqueue_effect message with
      | kept _ evicted _ => exact hevicted evicted
      | added _ evicted _ _ => exact hevicted evicted
      | displaced _ _ _ _ full _ => exact absurd full hroom.ne
  · intro hfull
    cases q.enqueue_effect message with
    | kept entered _ _ => exact Or.inl entered
    | added _ _ room _ => exact absurd (room hmax) (not_lt.mpr hfull)
    | displaced oldest _ evicted _ _ _ =>
        right
        rw [evicted]
        exact Option.some_ne_none oldest

end SendQueue

/-! ## The threshold as a number of messages -/

namespace BackpressureController

variable {times : Nat → ℚ → ℚ}

theorem mem_laggingConnections_iff (c : BackpressureController) (connectionId : String)
    (depth : Nat → Nat) :
    connectionId ∈ c.laggingConnections times depth ↔
      ∃ queue, c.getQueue connectionId = some queue ∧ c.warnThreshold times ≤ depth queue := by
  constructor
  · intro hmem
    obtain ⟨⟨_, queue⟩, hfilter, rfl⟩ := List.mem_map.mp hmem
    obtain ⟨hentry, hdepth⟩ := List.mem_filter.mp hfilter
    exact ⟨queue, AList.mem_lookup_iff.mpr hentry, of_decide_eq_true hdepth⟩
  · rintro ⟨queue, hget, hdepth⟩
    exact mem_laggingConnections hget depth hdepth

/-- The threshold is within the bound unless the product exceeds it by a whole message. -/
theorem warnThreshold_le_iff (c : BackpressureController) :
    c.warnThreshold times ≤ c.cfg.maxQueueSize ↔
      times c.cfg.maxQueueSize c.cfg.warnThresholdPct < c.cfg.maxQueueSize + 1 := by
  unfold warnThreshold
  dsimp only
  split
  case isTrue _ =>
    rw [← Int.lt_add_one_iff, Int.floor_lt]
    push_cast
    rfl
  case isFalse hneg =>
    rw [not_le] at hneg
    have hsize : (0 : ℚ) ≤ c.cfg.maxQueueSize := Nat.cast_nonneg _
    apply iff_of_true
    · rw [Int.ceil_le]
      exact hneg.le.trans (by exact_mod_cast hsize)
    · linarith

/-- The threshold reaches a positive bound when the product does. -/
theorem le_warnThreshold_iff {c : BackpressureController} (hmax : 0 < c.cfg.maxQueueSize) :
    (c.cfg.maxQueueSize : Int) ≤ c.warnThreshold times ↔
      (c.cfg.maxQueueSize : ℚ) ≤ times c.cfg.maxQueueSize c.cfg.warnThresholdPct := by
  unfold warnThreshold
  dsimp only
  split
  case isTrue _ =>
    rw [Int.le_floor]
    norm_cast
  case isFalse hneg =>
    rw [not_le] at hneg
    have hpos : (0 : ℚ) < c.cfg.maxQueueSize := Nat.cast_pos.mpr hmax
    apply iff_of_false
    · rw [not_le]
      have hceil : ⌈times c.cfg.maxQueueSize c.cfg.warnThresholdPct⌉ ≤ 0 := by
        rw [Int.ceil_le]
        exact_mod_cast hneg.le
      omega
    · linarith

end BackpressureController

/-! ## Filling a queue -/

namespace SendSystem

/-- One sender fills a queue to any depth within its bound. -/
theorem exists_run_of_depth [Nonempty α] (connectionId : String) {maxSize : Nat}
    (strategy : BackpressureStrategy) {n : Nat} (hn : n ≤ maxSize) :
    ∃ acts, ∃ σ : SendSystem α, Run step (start connectionId maxSize strategy) acts σ ∧
      σ.waiting 0 = none ∧ σ.queue.depth = n := by
  obtain ⟨message⟩ := ‹Nonempty α›
  induction n with
  | zero =>
      refine ⟨[], _, Run.nil, rfl, ?_⟩
      rw [SendQueue.depth_eq, start, SendQueue.new_content, List.length_nil]
  | succ n ih =>
      obtain ⟨acts, σ, run, hfree, hdepth⟩ := ih (Nat.le_of_succ_le hn)
      have hmax := (config_of_run run).2
      have hroom : σ.queue.content.length < σ.queue.maxSize := by
        rw [← SendQueue.depth_eq]
        omega
      have hentered := SendQueue.enqueue_entered hroom message
      have hnext : (σ.queue.enqueue message).queue.depth = σ.queue.depth + 1 := by
        apply SendQueue.enqueue_depth_of_entered hentered
        omega
      have hreturned : (σ.queue.enqueue message).returned.isNone = false := by
        have hlength := (σ.queue.enqueue_retained_sublist message).length_le
        cases hr : (σ.queue.enqueue message).returned with
        | none => simp [Outcome.retained, hentered, hr] at hlength
        | some returned => rfl
      let offering : SendSystem α := { σ with offered := σ.offered ++ [(0, message)] }
      refine ⟨acts ++ [.enqueue 0 message],
        offering.settle 0 message (σ.queue.enqueue message), run.snoc ?_, ?_, ?_⟩
      · simp only [step, hfree, offering]
      · simp [settle, hreturned]
      · rw [settle_queue, hnext, hdepth]

end SendSystem

namespace ControllerState

/-- Whatever is done with one queue can be done with it under the id of a connection. -/
theorem exists_run_of_queue {cfg : BackpressureConfig} {connectionId : String}
    {acts : List (SendAction α)} {s : SendSystem α}
    (run : Run SendSystem.step
      (SendSystem.start connectionId cfg.maxQueueSize cfg.strategy) acts s) :
    ∃ acts', ∃ σ : ControllerState α, Run step (start cfg) acts' σ ∧
      σ.controller.getQueue connectionId = some 0 ∧ σ.queues 0 = s := by
  induction run with
  | nil =>
      refine ⟨[.connect connectionId], _, Run.nil.snoc rfl, ?_, ?_⟩
      · exact (BackpressureController.getQueue_addConnection _ _ _ _).trans (if_pos rfl)
      · simp [start, BackpressureController.new]
  | @snoc acts s a t _ h ih =>
      obtain ⟨acts', σ, run', hget, hqueue⟩ := ih
      refine ⟨acts' ++ [.broadcast connectionId a],
        { σ with queues := Function.update σ.queues 0 t }, run'.snoc ?_, hget, ?_⟩
      · rw [step, hget, Option.bind_some, call, hqueue, h, Option.map_some]
      · simp

/-- Every connection whose next message would not just be added is listed as lagging. -/
def WarnsInTime (times : Nat → ℚ → ℚ) (σ : ControllerState α) : Prop :=
  ∀ connectionId queue, σ.controller.getQueue connectionId = some queue →
    ∀ message, (σ.queues queue).queue.Overflows message →
      connectionId ∈ σ.controller.laggingConnections times σ.depthOf

/-- No other connection is listed. -/
def WarnsOnlyThen (times : Nat → ℚ → ℚ) (σ : ControllerState α) : Prop :=
  ∀ connectionId ∈ σ.controller.laggingConnections times σ.depthOf,
    ∃ queue, σ.controller.getQueue connectionId = some queue ∧
      ∀ message, (σ.queues queue).queue.Overflows message

section Runs

variable {cfg : BackpressureConfig} {times : Nat → ℚ → ℚ}

/-- In a run every queue is bounded as configured, and overflows when it is full. -/
theorem queue_of_run (hmax : 0 < cfg.maxQueueSize) {acts : List (ControllerAction α)}
    {σ : ControllerState α} (run : Run step (start cfg) acts σ) (queue : Nat) :
    σ.depthOf queue ≤ cfg.maxQueueSize ∧
      ∀ message, (σ.queues queue).queue.Overflows message ↔
        cfg.maxQueueSize ≤ σ.depthOf queue := by
  obtain ⟨connectionId, queueActs, hrun⟩ := (usesQueues_of_run run).used queue
  have hsize := (SendSystem.config_of_run hrun).2
  constructor
  · have hbounded := (SendSystem.toFifo_of_run hrun hmax).bounded
    rw [depthOf, SendQueue.depth_eq]
    exact hbounded
  · intro message
    rw [SendQueue.overflows_iff (hsize.symm ▸ hmax), hsize]
    rfl

theorem warnThreshold_of_run {acts : List (ControllerAction α)} {σ : ControllerState α}
    (run : Run step (start cfg) acts σ) :
    σ.controller.warnThreshold times = (BackpressureController.new cfg).warnThreshold times := by
  unfold BackpressureController.warnThreshold
  rw [(usesQueues_of_run run).cfg_eq]
  rfl

/-- A connection can have any depth up to the bound. -/
theorem exists_run_of_depth [Nonempty α] {n : Nat} (hn : n ≤ cfg.maxQueueSize) :
    ∃ acts, ∃ σ : ControllerState α, Run step (start cfg) acts σ ∧
      σ.controller.getQueue "" = some 0 ∧ σ.depthOf 0 = n := by
  obtain ⟨_, s, hrun, _, hdepth⟩ := SendSystem.exists_run_of_depth (α := α) "" cfg.strategy hn
  obtain ⟨acts, σ, run, hget, hqueue⟩ := exists_run_of_queue hrun
  refine ⟨acts, σ, run, hget, ?_⟩
  rw [depthOf, hqueue, hdepth]

/-- A full queue has to be listed, so that the threshold has to be within the bound. -/
theorem warnsInTime_iff [Nonempty α] (hmax : 0 < cfg.maxQueueSize) :
    (∀ acts, ∀ σ : ControllerState α, Run step (start cfg) acts σ → σ.WarnsInTime times) ↔
      (BackpressureController.new cfg).warnThreshold times ≤ cfg.maxQueueSize := by
  constructor
  · intro hwarns
    obtain ⟨acts, σ, run, hget, hdepth⟩ := exists_run_of_depth (α := α) (le_refl cfg.maxQueueSize)
    obtain ⟨message⟩ := ‹Nonempty α›
    have hover := ((queue_of_run hmax run 0).2 message).mpr hdepth.ge
    have hlisted := hwarns acts σ run "" 0 hget message hover
    obtain ⟨queue, hqueue, hreached⟩ :=
      (BackpressureController.mem_laggingConnections_iff _ _ _).mp hlisted
    obtain rfl := Option.some.inj (hget.symm.trans hqueue)
    rwa [warnThreshold_of_run run, hdepth] at hreached
  · intro hthreshold acts σ run connectionId queue hget message hover
    have hfull := ((queue_of_run hmax run queue).2 message).mp hover
    apply BackpressureController.mem_laggingConnections hget
    rw [warnThreshold_of_run run]
    omega

/-- A queue that has just reached a threshold below the bound has room. -/
theorem warnsOnlyThen_iff [Nonempty α] (hmax : 0 < cfg.maxQueueSize) :
    (∀ acts, ∀ σ : ControllerState α, Run step (start cfg) acts σ → σ.WarnsOnlyThen times) ↔
      (cfg.maxQueueSize : Int) ≤ (BackpressureController.new cfg).warnThreshold times := by
  constructor
  · intro honly
    by_contra hbelow
    rw [not_le] at hbelow
    have hroom :
        ((BackpressureController.new cfg).warnThreshold times).toNat < cfg.maxQueueSize := by
      omega
    obtain ⟨acts, σ, run, hget, hdepth⟩ := exists_run_of_depth (α := α) hroom.le
    have hlisted : "" ∈ σ.controller.laggingConnections times σ.depthOf := by
      apply BackpressureController.mem_laggingConnections hget
      rw [warnThreshold_of_run run, hdepth]
      exact Int.self_le_toNat _
    obtain ⟨queue, hqueue, hover⟩ := honly acts σ run "" hlisted
    obtain rfl := Option.some.inj (hget.symm.trans hqueue)
    obtain ⟨message⟩ := ‹Nonempty α›
    have hfull := ((queue_of_run hmax run 0).2 message).mp (hover message)
    omega
  · intro hthreshold acts σ run connectionId hlisted
    obtain ⟨queue, hget, hreached⟩ :=
      (BackpressureController.mem_laggingConnections_iff _ _ _).mp hlisted
    rw [warnThreshold_of_run run] at hreached
    refine ⟨queue, hget, ?_⟩
    intro message
    rw [(queue_of_run hmax run queue).2 message]
    omega

/-- For every configuration with a positive bound, and however the machine rounds the product of
bound and fraction: `lagging_connections` lists, in every state of every run, each connection
whose next message would be lost or delayed if and only if the product exceeds the bound by
less than a message; and it lists only such connections if and only if the product reaches
the bound. -/
theorem lag_warning_iff [Nonempty α] (times : Nat → ℚ → ℚ) (hmax : 0 < cfg.maxQueueSize) :
    ((∀ acts, ∀ σ : ControllerState α, Run step (start cfg) acts σ → σ.WarnsInTime times) ↔
        times cfg.maxQueueSize cfg.warnThresholdPct < cfg.maxQueueSize + 1) ∧
      ((∀ acts, ∀ σ : ControllerState α, Run step (start cfg) acts σ → σ.WarnsOnlyThen times) ↔
        cfg.maxQueueSize ≤ times cfg.maxQueueSize cfg.warnThresholdPct) := by
  let c := BackpressureController.new cfg
  constructor
  · exact (warnsInTime_iff hmax).trans c.warnThreshold_le_iff
  · exact (warnsOnlyThen_iff hmax).trans (c.le_warnThreshold_iff hmax)

/-- The default configuration, whose product is exact, warns in time, and before a queue is
full. -/
theorem lag_warning_default :
    (∀ acts, ∀ σ : ControllerState Nat, Run step (start {}) acts σ → σ.WarnsInTime exactTimes) ∧
      ¬ ∀ acts, ∀ σ : ControllerState Nat, Run step (start {}) acts σ →
        σ.WarnsOnlyThen exactTimes := by
  obtain ⟨htime, honly⟩ := lag_warning_iff (α := Nat) exactTimes
    (show 0 < ({} : BackpressureConfig).maxQueueSize by decide)
  rw [htime, honly]
  norm_num [exactTimes]

end Runs

end ControllerState

end WebSocketPatterns.Backpressure
