import WebSocketPatterns.Backpressure.Conservation
import WebSocketPatterns.Backpressure.Controller
import Mathlib.Algebra.Order.BigOperators.Group.List
import Mathlib.Tactic.Linarith

/-!
# Statistics of all connections

`global_stats` sums the counters of the queues the controller has at the call; a
connection that was removed takes its counters with it. Every queue object of a
controller is a send queue that has been used on its own, so that what is true
of each is true of the sums.
-/

namespace WebSocketPatterns.Backpressure

open Transition

/-- What `global_stats` returns. -/
structure GlobalStats where
  connections : Nat
  totalQueued : Nat
  totalDropped : Nat
  totalSent : Nat
  overallDropRate : ℚ
deriving DecidableEq

/-- Aggregate stats across all connections; `stats` reads those of a queue object. -/
def BackpressureController.globalStats (c : BackpressureController) (stats : Nat → SendStats) :
    GlobalStats :=
  let all := c.queues.values.map stats
  let totalQueued := (all.map SendStats.messagesQueued).sum
  let totalDropped := (all.map SendStats.messagesDropped).sum
  { connections := c.queues.len
    totalQueued := totalQueued
    totalDropped := totalDropped
    totalSent := (all.map SendStats.messagesSent).sum
    overallDropRate := (totalDropped : ℚ) / (max 1 (totalQueued + totalDropped) : Nat) }

/-! ## The overall drop rate -/

/-- The calls that were counted, as queued or as dropped. -/
def SendStats.calls (stats : SendStats) : Nat := stats.messagesQueued + stats.messagesDropped

theorem SendStats.dropRate_mul_calls (stats : SendStats) :
    stats.dropRate * stats.calls = stats.messagesDropped := by
  unfold dropRate calls
  by_cases hcalls : stats.messagesQueued + stats.messagesDropped = 0
  · have hdropped : stats.messagesDropped = 0 := by omega
    simp [hdropped]
  · have hne : ((stats.messagesQueued + stats.messagesDropped : Nat) : ℚ) ≠ 0 :=
      Nat.cast_ne_zero.mpr hcalls
    rw [if_neg hcalls, div_mul_cancel₀ _ hne]

/-- Bounds of the single drop rates bound the sums. -/
theorem SendStats.sum_dropped_between {low high : ℚ} (all : List SendStats)
    (h : ∀ stats ∈ all, 0 < stats.calls → low ≤ stats.dropRate ∧ stats.dropRate ≤ high) :
    low * ((all.map calls).sum : Nat) ≤ ((all.map messagesDropped).sum : Nat) ∧
      ((all.map messagesDropped).sum : Nat) ≤ high * ((all.map calls).sum : Nat) := by
  induction all with
  | nil => simp
  | cons stats rest ih =>
      obtain ⟨hlow, hhigh⟩ := ih fun other hmem => h other (List.mem_cons_of_mem _ hmem)
      have hone : low * stats.calls ≤ stats.messagesDropped ∧
          (stats.messagesDropped : ℚ) ≤ high * stats.calls := by
        rw [← stats.dropRate_mul_calls]
        rcases Nat.eq_zero_or_pos stats.calls with hnone | hsome
        · simp [hnone]
        · obtain ⟨hl, hh⟩ := h stats List.mem_cons_self hsome
          have hpos : (0 : ℚ) ≤ stats.calls := Nat.cast_nonneg _
          exact ⟨mul_le_mul_of_nonneg_right hl hpos, mul_le_mul_of_nonneg_right hh hpos⟩
      simp only [List.map_cons, List.sum_cons, Nat.cast_add, mul_add]
      exact ⟨add_le_add hone.1 hlow, add_le_add hone.2 hhigh⟩

theorem SendStats.sum_calls (all : List SendStats) :
    (all.map calls).sum = (all.map messagesQueued).sum + (all.map messagesDropped).sum := by
  induction all with
  | nil => rfl
  | cons stats rest ih =>
      simp only [List.map_cons, List.sum_cons, ih, calls]
      omega

/-- The overall drop rate lies between bounds of the connections' own drop rates, where
connections without calls do not count; if no call was counted at all, it is zero. -/
theorem BackpressureController.overall_drop_rate_between (c : BackpressureController)
    (stats : Nat → SendStats) :
    ((c.globalStats stats).totalQueued + (c.globalStats stats).totalDropped = 0 →
      (c.globalStats stats).overallDropRate = 0) ∧
    (0 < (c.globalStats stats).totalQueued + (c.globalStats stats).totalDropped →
      ∀ low high : ℚ, (∀ queue ∈ c.queues.values, 0 < (stats queue).calls →
          low ≤ (stats queue).dropRate ∧ (stats queue).dropRate ≤ high) →
        low ≤ (c.globalStats stats).overallDropRate ∧
          (c.globalStats stats).overallDropRate ≤ high) := by
  simp only [globalStats]
  constructor
  · intro hnone
    rw [(Nat.add_eq_zero_iff.mp hnone).2, Nat.cast_zero, zero_div]
  · intro hcalls low high h
    have hsums := SendStats.sum_dropped_between (c.queues.values.map stats) (by simpa using h)
    rw [SendStats.sum_calls] at hsums
    rw [max_eq_right hcalls]
    have hpos := Nat.cast_pos (α := ℚ).mpr hcalls
    rw [le_div_iff₀ hpos, div_le_iff₀ hpos]
    exact hsums

/-- Two connections with calls, of different drop rates, and one without. -/
def threeStats (queue : Nat) : SendStats :=
  if queue = 0 then { connectionId := "a", messagesQueued := 3, messagesDropped := 1 }
  else if queue = 1 then { connectionId := "b", messagesQueued := 1, messagesDropped := 1 }
  else { connectionId := "c" }

theorem overall_drop_rate_between_three :
    let c := (((BackpressureController.new {}).addConnection "a" 0).addConnection "b"
      1).addConnection "c" 2
    1 / 4 ≤ (c.globalStats threeStats).overallDropRate ∧
      (c.globalStats threeStats).overallDropRate ≤ 1 / 2 := by
  intro c
  apply (c.overall_drop_rate_between threeStats).2
  · decide
  · decide +kernel

/-! ## Totals over the runs of a controller -/

namespace SendSystem

variable {α : Type*}

/-- What was counted as queued and not as sent: failed, still queued, or in a send. -/
def unsent (σ : SendSystem α) : Nat :=
  σ.queue.stats.sendErrors + σ.queue.depth + σ.drains.length

/-- BLOCK_SENDER and DISCONNECT count no message as dropped. -/
theorem dropped_eq_zero_of_run {connectionId : String} {maxSize : Nat}
    {strategy : BackpressureStrategy} {acts : List (SendAction α)} {σ : SendSystem α}
    (run : Run step (start connectionId maxSize strategy) acts σ)
    (hstrategy : strategy = .blockSender ∨ strategy = .disconnect) :
    σ.queue.stats.messagesDropped = 0 := by
  have hput : ∀ (q : SendQueue α) (message : α),
      (q.put message).queue.stats.messagesDropped = q.stats.messagesDropped := by
    intro q message
    unfold SendQueue.put
    split
    · rfl
    · split <;> rfl
  induction run with
  | nil => rfl
  | @snoc acts σ a τ run h ih =>
      have hconfig := (config_of_run run).1
      cases stepped h with
      | enqueue sender message _ =>
          rw [settle_queue, ← ih]
          rcases hstrategy with rfl | rfl
          · simp only [SendQueue.enqueue, SendQueue.markHighWater_strategy, hconfig, hput]
            rfl
          · simp only [SendQueue.enqueue, SendQueue.markHighWater_strategy, hconfig]
            split <;> rfl
      | wake sender message _ =>
          rw [settle_queue, hput]
          exact ih
      | cancel sender message _ => exact ih
      | drained others q remaining sent _ _ dropped _ =>
          rw [advance_stats, dropped]
          exact ih

end SendSystem

namespace ControllerState

variable {α : Type*}

/-- `controller.global_stats()`. -/
def globalStats (σ : ControllerState α) : GlobalStats :=
  σ.controller.globalStats fun queue => (σ.queues queue).queue.stats

/-- The sum over the queues of the registered connections. -/
def total (σ : ControllerState α) (f : SendSystem α → Nat) : Nat :=
  (σ.controller.queues.values.map fun queue => f (σ.queues queue)).sum

/-- Every queue object has been used as a send queue of the controller's configuration. -/
structure UsesQueues (cfg : BackpressureConfig) (σ : ControllerState α) : Prop where
  cfg_eq : σ.controller.cfg = cfg
  used : ∀ queue, ∃ connectionId acts,
    Run SendSystem.step (SendSystem.start connectionId cfg.maxQueueSize cfg.strategy) acts
      (σ.queues queue)

theorem start_usesQueues (cfg : BackpressureConfig) :
    (start cfg : ControllerState α).UsesQueues cfg where
  cfg_eq := rfl
  used := fun _ => ⟨"", [], Run.nil⟩

section Steps

variable {cfg : BackpressureConfig} {σ τ : ControllerState α}

/-- A call adds one action to the use of one queue object. -/
theorem UsesQueues.call (huses : σ.UsesQueues cfg) {queue : Nat} {a : SendAction α}
    (h : σ.call queue a = some τ) : τ.UsesQueues cfg := by
  obtain ⟨s, hstep, rfl⟩ := Option.map_eq_some_iff.mp h
  refine ⟨huses.cfg_eq, ?_⟩
  intro other
  obtain ⟨connectionId, acts, run⟩ := huses.used other
  by_cases hother : other = queue
  · subst hother
    refine ⟨connectionId, acts ++ [a], ?_⟩
    simpa using run.snoc hstep
  · exact ⟨connectionId, acts, by simpa [hother] using run⟩

theorem UsesQueues.step (huses : σ.UsesQueues cfg) {a : ControllerAction α}
    (h : σ.step a = some τ) : τ.UsesQueues cfg := by
  cases a with
  | connect clientId =>
      obtain rfl := Option.some.inj h
      refine ⟨huses.cfg_eq, ?_⟩
      intro queue
      by_cases hnew : queue = σ.nextQueue
      · subst hnew
        refine ⟨clientId, [], ?_⟩
        simp only [← huses.cfg_eq, Function.update_self]
        exact Run.nil
      · simpa [hnew] using huses.used queue
  | use i call =>
      obtain ⟨_, _, hcall⟩ := Option.bind_eq_some_iff.mp h
      exact huses.call hcall
  | broadcast clientId call =>
      obtain ⟨_, _, hcall⟩ := Option.bind_eq_some_iff.mp h
      exact huses.call hcall
  | disconnect i =>
      obtain ⟨_, _, rfl⟩ := Option.map_eq_some_iff.mp h
      exact ⟨huses.cfg_eq, huses.used⟩

end Steps

theorem usesQueues_of_run {cfg : BackpressureConfig} {acts : List (ControllerAction α)}
    {σ : ControllerState α} (run : Run step (start cfg) acts σ) : σ.UsesQueues cfg :=
  run.invariant (I := fun _ σ => σ.UsesQueues cfg) (start_usesQueues cfg)
    fun _ _ _ _ huses h => huses.step h

/-- What holds of every queue that was used holds of the sums. -/
theorem UsesQueues.total_congr {cfg : BackpressureConfig} {σ : ControllerState α}
    (huses : σ.UsesQueues cfg) {f g : SendSystem α → Nat}
    (h : ∀ connectionId acts s, Run SendSystem.step
      (SendSystem.start connectionId cfg.maxQueueSize cfg.strategy) acts s → f s = g s) :
    σ.total f = σ.total g := by
  unfold total
  congr 1
  apply List.map_congr_left
  intro queue _
  obtain ⟨connectionId, acts, run⟩ := huses.used queue
  exact h connectionId acts _ run

theorem total_add (σ : ControllerState α) (f g : SendSystem α → Nat) :
    σ.total (fun s => f s + g s) = σ.total f + σ.total g :=
  List.sum_map_add

/-- After every run of a controller whose strategy evicts nothing, however connections came and
went: what `global_stats` counts as queued was sent, or failed, or is queued or in a send on
one of the connections it has; under DROP_NEWEST all calls on these connections are counted,
as queued or as dropped; and under the other two strategies the overall drop rate is zero. -/
theorem global_stats_of_run {cfg : BackpressureConfig} (hmax : 0 < cfg.maxQueueSize)
    (hstrategy : cfg.strategy ≠ .dropOldest) {acts : List (ControllerAction α)}
    {σ : ControllerState α} (run : Run step (start cfg) acts σ) :
    σ.globalStats.connections = σ.controller.queues.keys.length ∧
    σ.globalStats.totalQueued = σ.globalStats.totalSent + σ.total SendSystem.unsent ∧
    (cfg.strategy = .dropNewest → σ.total (fun s => s.offered.length) =
      σ.globalStats.totalQueued + σ.globalStats.totalDropped) ∧
    (cfg.strategy ≠ .dropNewest → σ.globalStats.overallDropRate = 0) := by
  have huses := usesQueues_of_run run
  have htotal : ∀ f : SendStats → Nat,
      ((σ.controller.queues.values.map fun queue => (σ.queues queue).queue.stats).map f).sum =
        σ.total fun s => f s.queue.stats := by
    intro f
    rw [List.map_map]
    rfl
  simp only [globalStats, BackpressureController.globalStats, htotal]
  refine ⟨Dict.len_eq_length_keys _, ?_, ?_, ?_⟩
  · rw [← total_add]
    apply huses.total_congr
    intro connectionId acts s hrun
    rw [(SendSystem.messages_conserved hmax hstrategy hrun).1, SendSystem.unsent]
    omega
  · intro hnewest
    rw [← total_add]
    apply huses.total_congr
    intro connectionId acts s hrun
    exact ((SendSystem.messages_conserved hmax hstrategy hrun).2.2.1 hnewest).1
  · intro hnewest
    have hkinds : cfg.strategy = .blockSender ∨ cfg.strategy = .disconnect := by
      cases hs : cfg.strategy <;> simp_all
    have hzero : σ.total (fun s => s.queue.stats.messagesDropped) = σ.total fun _ => 0 := by
      apply huses.total_congr
      intro connectionId acts s hrun
      exact SendSystem.dropped_eq_zero_of_run hrun hkinds
    have hnone : σ.total (fun _ => 0) = 0 := by
      simp [total]
    rw [hzero, hnone, Nat.cast_zero, zero_div]

/-- Two connections drop what comes when they are full, and a third has gone. -/
def fullActs : List (ControllerAction Nat) :=
  [.connect "a", .connect "b", .connect "c", .use 0 (.enqueue 0 1), .use 0 (.enqueue 0 2),
    .use 1 (.enqueue 1 1), .use 1 (.drain 1), .use 2 (.enqueue 2 1), .disconnect 2]

theorem global_stats_of_run_full :
    let σ := (exec step (start { maxQueueSize := 1, strategy := .dropNewest }) fullActs).get
      (by decide)
    σ.globalStats.totalQueued = 2 ∧ σ.globalStats.totalDropped = 1 ∧
      σ.globalStats.totalQueued = σ.globalStats.totalSent + σ.total SendSystem.unsent ∧
      σ.total (fun s => s.offered.length) = 3 := by
  intro σ
  have run : Run step (start { maxQueueSize := 1, strategy := .dropNewest }) fullActs σ :=
    run_get (by decide)
  obtain ⟨_, hqueued, hcalls, _⟩ := global_stats_of_run (by decide) (by decide) run
  exact ⟨by decide, by decide, hqueued, (hcalls rfl).trans (by decide)⟩

end ControllerState

end WebSocketPatterns.Backpressure
