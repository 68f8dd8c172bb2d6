import WebSocketPatterns.Backpressure.QueueRuns
import WebSocketPatterns.Collections.Dict
import Mathlib.Data.Rat.Floor

/-!
# The controller and its connection handlers

A handler calls `add_connection` when it starts, uses the queue it got, and
calls `remove_connection` when it ends. Queue objects are named by numbers, so
that two queues added under one id are different objects; each has its own
calls in progress. Floats are rationals, and the product of an int and a float
is a parameter, since it is rounded.
-/

namespace WebSocketPatterns.Backpressure

open Transition

/-- Configuration of the controller; the default threshold is the float `0.8`. -/
structure BackpressureConfig where
  maxQueueSize : Nat := 256
  strategy : BackpressureStrategy := .dropOldest
  warnThresholdPct : ℚ := 3602879701896397 / 4503599627370496

/-- The send queues by connection id. -/
structure BackpressureController where
  cfg : BackpressureConfig
  queues : Dict String Nat

/-- A running connection handler: the id it connected with and the queue it was given. -/
structure Handler where
  clientId : String
  queue : Nat
deriving DecidableEq

/-- The controller, the queue objects, and the live handlers in the order they connected. -/
structure ControllerState (α : Type*) where
  controller : BackpressureController
  queues : Nat → SendSystem α
  nextQueue : Nat
  handlers : List Handler

/-- A handler connects, acts on its own queue, or runs its cleanup; anyone acts on the queue
found under an id. Handlers are named by their position among the live ones. -/
inductive ControllerAction (α : Type*)
  | connect (clientId : String)
  | use (handler : Nat) (call : SendAction α)
  | broadcast (clientId : String) (call : SendAction α)
  | disconnect (handler : Nat)

namespace BackpressureController

/-- A controller without connections. -/
def new (cfg : BackpressureConfig) : BackpressureController where
  cfg := cfg
  queues := ∅

/-- Store the queue created for a new connection. -/
def addConnection (c : BackpressureController) (connectionId : String) (queue : Nat) :
    BackpressureController :=
  { c with queues := c.queues.set connectionId queue }

/-- Remove and discard a connection's queue. -/
def removeConnection (c : BackpressureController) (connectionId : String) :
    BackpressureController :=
  { c with queues := c.queues.erase connectionId }

/-- The queue of a connection. -/
def getQueue (c : BackpressureController) (connectionId : String) : Option Nat :=
  c.queues.lookup connectionId

/-- `int(max_queue_size * warn_threshold_pct)`, which truncates the float product toward zero. -/
def warnThreshold (times : Nat → ℚ → ℚ) (c : BackpressureController) : Int :=
  let size := times c.cfg.maxQueueSize c.cfg.warnThresholdPct
  if 0 ≤ size then ⌊size⌋ else ⌈size⌉

/-- The ids whose queues have reached the warn threshold. -/
def laggingConnections (times : Nat → ℚ → ℚ) (c : BackpressureController) (depth : Nat → Nat) :
    List String :=
  (c.queues.entries.filter fun e => decide (c.warnThreshold times ≤ depth e.2)).map Sigma.fst

theorem getQueue_addConnection (c : BackpressureController) (added connectionId : String)
    (queue : Nat) :
    (c.addConnection added queue).getQueue connectionId =
      if connectionId = added then some queue else c.getQueue connectionId :=
  Dict.lookup_set c.queues added connectionId queue

theorem getQueue_removeConnection (c : BackpressureController) (removed connectionId : String) :
    (c.removeConnection removed).getQueue connectionId =
      if connectionId = removed then none else c.getQueue connectionId :=
  Dict.lookup_erase_eq c.queues removed connectionId

/-- A found queue that has reached the threshold is reported as lagging. -/
theorem mem_laggingConnections {times : Nat → ℚ → ℚ} {c : BackpressureController}
    {connectionId : String} {queue : Nat} (h : c.getQueue connectionId = some queue)
    (depth : Nat → Nat) (hdepth : c.warnThreshold times ≤ depth queue) :
    connectionId ∈ c.laggingConnections times depth := by
  have hentry : (⟨connectionId, queue⟩ : Sigma fun _ : String => Nat) ∈ c.queues.entries :=
    AList.mem_lookup_iff.mp h
  apply List.mem_map.mpr
  exact ⟨_, List.mem_filter.mpr ⟨hentry, decide_eq_true hdepth⟩, rfl⟩

end BackpressureController

namespace ControllerState

variable {α : Type*}

/-- A controller without handlers. -/
def start (cfg : BackpressureConfig) : ControllerState α where
  controller := BackpressureController.new cfg
  queues := fun _ => SendSystem.start "" cfg.maxQueueSize cfg.strategy
  nextQueue := 0
  handlers := []

/-- A call on one queue object; the others are unchanged. -/
def call (σ : ControllerState α) (queue : Nat) (a : SendAction α) : Option (ControllerState α) :=
  ((σ.queues queue).step a).map fun s =>
    { σ with queues := Function.update σ.queues queue s }

/-- One action; `none` when there is no such handler or queue, or the call is not possible. -/
def step (σ : ControllerState α) : ControllerAction α → Option (ControllerState α)
  | .connect clientId =>
      let cfg := σ.controller.cfg
      some
        { controller := σ.controller.addConnection clientId σ.nextQueue
          queues := Function.update σ.queues σ.nextQueue
            (SendSystem.start clientId cfg.maxQueueSize cfg.strategy)
          nextQueue := σ.nextQueue + 1
          handlers := σ.handlers ++ [⟨clientId, σ.nextQueue⟩] }
  | .use i a => (σ.handlers[i]?).bind fun h => σ.call h.queue a
  | .broadcast clientId a => (σ.controller.getQueue clientId).bind fun queue => σ.call queue a
  | .disconnect i =>
      (σ.handlers[i]?).map fun h =>
        { σ with
          controller := σ.controller.removeConnection h.clientId
          handlers := σ.handlers.eraseIdx i }

/-- The live handlers of a client, in the order they connected. -/
def liveOf (σ : ControllerState α) (clientId : String) : List Handler :=
  σ.handlers.filter fun h => decide (h.clientId = clientId)

/-- The depth of a queue object. -/
def depthOf (σ : ControllerState α) (queue : Nat) : Nat := (σ.queues queue).queue.depth

/-- The queue of every client's most recently connected live handler is the one found under
the client's id, and is seen to lag when it has reached the threshold. -/
def ServesLiveHandlers (times : Nat → ℚ → ℚ) (σ : ControllerState α) : Prop :=
  ∀ clientId h, (σ.liveOf clientId).getLast? = some h →
    σ.controller.getQueue clientId = some h.queue ∧
      (σ.controller.warnThreshold times ≤ σ.depthOf h.queue →
        clientId ∈ σ.controller.laggingConnections times σ.depthOf)

/-- The action runs no cleanup while another handler of the same client is live. -/
def CleansUpAlone (σ : ControllerState α) : ControllerAction α → Prop
  | .disconnect i => ∀ h ∈ σ.handlers[i]?, ∀ other ∈ σ.handlers.eraseIdx i,
      other.clientId ≠ h.clientId
  | _ => True

instance (σ : ControllerState α) (a : ControllerAction α) : Decidable (σ.CleansUpAlone a) := by
  cases a <;> unfold CleansUpAlone <;> infer_instance

section Times

variable {times : Nat → ℚ → ℚ}

/-- What the controller reports follows from which queue is found. -/
theorem servesLiveHandlers_iff (σ : ControllerState α) :
    σ.ServesLiveHandlers times ↔ ∀ clientId h, (σ.liveOf clientId).getLast? = some h →
      σ.controller.getQueue clientId = some h.queue := by
  constructor
  · intro hserves clientId h hlast
    exact (hserves clientId h hlast).1
  · intro hfound clientId h hlast
    have hget := hfound clientId h hlast
    exact ⟨hget, BackpressureController.mem_laggingConnections hget σ.depthOf⟩

theorem start_servesLiveHandlers (cfg : BackpressureConfig) :
    (start cfg : ControllerState α).ServesLiveHandlers times := by
  simp [ServesLiveHandlers, start, liveOf]

section Steps

variable {σ τ : ControllerState α} {a : ControllerAction α}

/-- A call on a queue changes neither the registry nor the handlers. -/
theorem call_frame {queue : Nat} {call : SendAction α} (h : σ.call queue call = some τ) :
    τ.controller = σ.controller ∧ τ.handlers = σ.handlers := by
  obtain ⟨_, _, rfl⟩ := Option.map_eq_some_iff.mp h
  exact ⟨rfl, rfl⟩

theorem servesLiveHandlers_congr (hserves : σ.ServesLiveHandlers times)
    (h : τ.controller = σ.controller ∧ τ.handlers = σ.handlers) : τ.ServesLiveHandlers times := by
  rw [servesLiveHandlers_iff] at hserves ⊢
  rw [h.1]
  simpa only [liveOf, h.2] using hserves

/-- The new handler is the most recent one of its client and has the queue found. -/
theorem connect_servesLiveHandlers (hserves : σ.ServesLiveHandlers times) {clientId : String}
    (h : σ.step (.connect clientId) = some τ) : τ.ServesLiveHandlers times := by
  obtain rfl := Option.some.inj h
  rw [servesLiveHandlers_iff] at hserves ⊢
  intro other handler hlast
  rw [BackpressureController.getQueue_addConnection]
  simp only [liveOf, List.filter_append] at hlast
  by_cases hsame : other = clientId
  · subst hsame
    obtain rfl : ⟨other, σ.nextQueue⟩ = handler := by simpa using hlast
    exact if_pos rfl
  · rw [if_neg hsame]
    apply hserves other handler
    simpa [liveOf, Ne.symm hsame] using hlast

/-- Removing a handler leaves the other clients' handlers as they were. -/
theorem filter_eraseIdx {i : Nat} {h : Handler} (hi : σ.handlers[i]? = some h)
    {clientId : String} (hne : h.clientId ≠ clientId) :
    ((σ.handlers.eraseIdx i).filter fun h => decide (h.clientId = clientId)) =
      σ.liveOf clientId := by
  obtain ⟨hlt, rfl⟩ := List.getElem?_eq_some_iff.mp hi
  have hsplit : σ.handlers = σ.handlers.take i ++ σ.handlers[i] :: σ.handlers.drop (i + 1) := by
    rw [List.getElem_cons_drop, List.take_append_drop]
  calc
    ((σ.handlers.eraseIdx i).filter fun h => decide (h.clientId = clientId)) =
        (σ.handlers.take i ++ σ.handlers.drop (i + 1)).filter
          fun h => decide (h.clientId = clientId) := by
      rw [List.eraseIdx_eq_take_drop_succ]
    _ = (σ.handlers.take i ++ σ.handlers[i] :: σ.handlers.drop (i + 1)).filter
          fun h => decide (h.clientId = clientId) := by
      rw [List.filter_append, List.filter_append,
        List.filter_cons_of_neg (by simpa using hne)]
    _ = σ.liveOf clientId := by rw [← hsplit, liveOf]

/-- A cleanup serves the handlers that stay exactly when none of them has the same client. -/
theorem disconnect_servesLiveHandlers_iff (hserves : σ.ServesLiveHandlers times) {i : Nat}
    (h : σ.step (.disconnect i) = some τ) :
    τ.ServesLiveHandlers times ↔ σ.CleansUpAlone (.disconnect i) := by
  obtain ⟨handler, hi, rfl⟩ := Option.map_eq_some_iff.mp h
  rw [servesLiveHandlers_iff] at hserves ⊢
  have hcond : σ.CleansUpAlone (.disconnect i) ↔
      ∀ other ∈ σ.handlers.eraseIdx i, other.clientId ≠ handler.clientId := by
    simp [CleansUpAlone, hi]
  rw [hcond]
  constructor
  · intro hfound other hmem hsame
    have hne : ((σ.handlers.eraseIdx i).filter
        fun h => decide (h.clientId = handler.clientId)) ≠ [] := by
      apply List.ne_nil_of_mem
      exact List.mem_filter.mpr ⟨hmem, decide_eq_true hsame⟩
    have hget := hfound handler.clientId _ (List.getLast?_eq_some_getLast hne)
    rw [BackpressureController.getQueue_removeConnection, if_pos rfl] at hget
    simp at hget
  · intro halone clientId last hlast
    rw [BackpressureController.getQueue_removeConnection]
    by_cases hsame : clientId = handler.clientId
    · have hmem := List.mem_filter.mp (List.mem_of_getLast? hlast)
      have hid : last.clientId = clientId := of_decide_eq_true hmem.2
      exact absurd (hid.trans hsame) (halone last hmem.1)
    · rw [if_neg hsame]
      apply hserves clientId last
      rwa [← filter_eraseIdx hi (Ne.symm hsame)]

theorem step_servesLiveHandlers_iff (hserves : σ.ServesLiveHandlers times) (h : σ.step a = some τ) :
    τ.ServesLiveHandlers times ↔ σ.CleansUpAlone a := by
  cases a with
  | connect clientId => exact iff_of_true (connect_servesLiveHandlers hserves h) trivial
  | use i call =>
      obtain ⟨_, _, hcall⟩ := Option.bind_eq_some_iff.mp h
      exact iff_of_true (servesLiveHandlers_congr hserves (call_frame hcall)) trivial
  | broadcast clientId call =>
      obtain ⟨_, _, hcall⟩ := Option.bind_eq_some_iff.mp h
      exact iff_of_true (servesLiveHandlers_congr hserves (call_frame hcall)) trivial
  | disconnect i => exact disconnect_servesLiveHandlers_iff hserves h

end Steps

end Times

/-- In every state of a run the most recent live handlers are served if and only if no
cleanup of the run happens while another handler of the same client is live, however the
product of the threshold is rounded. -/
theorem serves_live_handlers_iff (times : Nat → ℚ → ℚ) {cfg : BackpressureConfig}
    {acts : List (ControllerAction α)} {σ : ControllerState α}
    (run : Run step (start cfg) acts σ) :
    Throughout step (start cfg) (fun _ σ => σ.ServesLiveHandlers times) acts ↔
      EachStep step (start cfg) (fun _ σ a => σ.CleansUpAlone a) acts := by
  apply throughout_iff_eachStep (start_servesLiveHandlers cfg) ?_ run
  intro _ _ _ _ _ hserves h
  exact step_servesLiveHandlers_iff hserves h

/-- The product of an int and a float where it needs no rounding, as with the default bound. -/
def exactTimes (size : Nat) (pct : ℚ) : ℚ := size * pct

/-- Two clients, and one of them again after its first connection was cleaned up. -/
def reconnectActs : List (ControllerAction Nat) :=
  [.connect "u", .connect "v", .use 0 (.enqueue 0 7), .disconnect 0, .connect "u",
    .broadcast "u" (.enqueue 0 8), .disconnect 0]

theorem serves_live_handlers_reconnect :
    Throughout step (start {}) (fun _ σ => σ.ServesLiveHandlers exactTimes) reconnectActs := by
  have run := run_get
    (show (exec step (start (α := Nat) {}) reconnectActs).isSome from by decide)
  apply (serves_live_handlers_iff exactTimes run).mpr
  decide

/-- The client reconnects before the cleanup of its first connection. -/
def overlapActs : List (ControllerAction Nat) := [.connect "u", .connect "u", .disconnect 0]

/-- The second handler is live, and no queue is found under its client's id. -/
theorem live_handler_not_found :
    ∃ σ : ControllerState Nat, Run step (start {}) overlapActs σ ∧
      σ.handlers = [⟨"u", 1⟩] ∧ σ.controller.getQueue "u" = none ∧
      ∀ times, ¬ σ.ServesLiveHandlers times := by
  refine ⟨_, run_get (by decide), by decide, by decide, ?_⟩
  intro times hserves
  have hfound := (hserves "u" ⟨"u", 1⟩ (by decide)).1
  exact absurd hfound (by decide)

end ControllerState

end WebSocketPatterns.Backpressure
