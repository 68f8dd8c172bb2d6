import WebSocketPatterns.Backpressure.Controller

/-!
# The two broadcasts of the benchmark

One gathers a send to every client; the other gathers an `enqueue` into every
client's queue and then a `drain` of every queue. `gather` returns when all its
coroutines have, and runs them in any order. An action runs a coroutine to its
next suspension; a send records its message when its delay is over, and may take
any time. Queue objects are named by the number of the client they were created
for.
-/

namespace WebSocketPatterns.Benchmarks

open Backpressure

variable {α : Type*}

/-- Accumulates the messages sent to one simulated client. -/
structure ClientBuffer (α : Type*) where
  clientId : String
  received : List α := []
deriving DecidableEq

/-- The end of `send`. -/
def ClientBuffer.send (c : ClientBuffer α) (data : α) : ClientBuffer α :=
  { c with received := c.received ++ [data] }

/-- The clients of `run_benchmark`. -/
def benchmarkClients (α : Type*) (nClients : Nat) : List (ClientBuffer α) :=
  (List.range nClients).map fun i => { clientId := "client-" ++ toString i }

/-- A coroutine of `broadcast_raw`: not started, in its delay, or done. -/
inductive SendTask
  | todo
  | sleeping
  | finished
deriving DecidableEq

/-- Between two broadcasts, or in the `gather` of one. -/
inductive RawStage (α : Type*)
  | idle
  | sending (payload : α) (tasks : Nat → SendTask)

/-- The clients, and where `broadcast_raw` stands. -/
structure RawBroadcast (α : Type*) where
  clients : List (ClientBuffer α)
  stage : RawStage α

/-- `broadcast_raw` is called or returns; a send begins or ends. -/
inductive RawAction (α : Type*)
  | broadcast (payload : α)
  | begin (client : Nat)
  | send (client : Nat)
  | gathered
deriving DecidableEq

namespace RawBroadcast

def start (nClients : Nat) : RawBroadcast α where
  clients := benchmarkClients α nClients
  stage := .idle

/-- One action; `none` when it is not possible. -/
def step (σ : RawBroadcast α) : RawAction α → Option (RawBroadcast α)
  | .broadcast payload =>
      match σ.stage with
      | .idle => some { σ with stage := .sending payload fun _ => .todo }
      | .sending _ _ => none
  | .begin i =>
      match σ.stage with
      | .idle => none
      | .sending payload tasks =>
          if i < σ.clients.length ∧ tasks i = .todo then
            some { σ with stage := .sending payload (Function.update tasks i .sleeping) }
          else none
  | .send i =>
      match σ.stage with
      | .idle => none
      | .sending payload tasks =>
          (σ.clients[i]?).bind fun c =>
            if tasks i = .sleeping then
              some
                { clients := σ.clients.set i (c.send payload)
                  stage := .sending payload (Function.update tasks i .finished) }
            else none
  | .gathered =>
      match σ.stage with
      | .idle => none
      | .sending _ tasks =>
          if (List.range σ.clients.length).all fun i => decide (tasks i = .finished) then
            some { σ with stage := .idle }
          else none

end RawBroadcast

/-- A coroutine of `broadcast_with_bp`: not started, waiting in `put`, in a send, or done. -/
inductive QueueTask (α : Type*)
  | todo
  | putting
  | sending (drain : Drain α)
  | finished

namespace QueueTask

def isFinished : QueueTask α → Bool
  | .finished => true
  | _ => false

/-- The task of an `enqueue` that has run. -/
def ofOutcome (o : Outcome α) : QueueTask α :=
  if o.returned.isNone then .putting else .finished

/-- The task of a `drain` that has run. -/
def ofProgress : DrainProgress α → QueueTask α
  | .returned _ => .finished
  | .sending drain => .sending drain

end QueueTask

/-- Between two broadcasts, or in the first or the second `gather` of one. -/
inductive QueuedStage (α : Type*)
  | idle
  | enqueuing (payload : α) (tasks : Nat → QueueTask α)
  | draining (tasks : Nat → QueueTask α)

/-- The controller, its queue objects, the clients, and where `broadcast_with_bp` stands. -/
structure QueuedBroadcast (α : Type*) where
  controller : BackpressureController
  queues : Nat → SendQueue α
  clients : List (ClientBuffer α)
  stage : QueuedStage α

/-- `broadcast_with_bp` is called, goes on to the drains, or returns; a client's message is
enqueued, a waiting put looks at the queue again, a drain begins, or its send ends. -/
inductive QueuedAction (α : Type*)
  | broadcast (payload : α)
  | enqueue (client : Nat)
  | wake (client : Nat)
  | enqueued
  | drain (client : Nat)
  | send (client : Nat)
  | drained
deriving DecidableEq

namespace QueuedBroadcast

/-- `controller.add_connection` for one client. -/
def addConnection (σ : QueuedBroadcast α) (client : ClientBuffer α × Nat) : QueuedBroadcast α :=
  let cfg := σ.controller.cfg
  { σ with
    controller := σ.controller.addConnection client.1.clientId client.2
    queues := Function.update σ.queues client.2
      (SendQueue.new client.1.clientId cfg.maxQueueSize cfg.strategy) }

/-- The controller and the clients before the first round. -/
def start (cfg : BackpressureConfig) (nClients : Nat) : QueuedBroadcast α :=
  (benchmarkClients α nClients).zipIdx.foldl addConnection
    { controller := BackpressureController.new cfg
      queues := fun _ => SendQueue.new "" cfg.maxQueueSize cfg.strategy
      clients := benchmarkClients α nClients
      stage := .idle }

/-- `controller.get_queue` of a client. -/
def queueOf (σ : QueuedBroadcast α) (i : Nat) : Option Nat :=
  (σ.clients[i]?).bind fun c => σ.controller.getQueue c.clientId

/-- The coroutines of a `gather`: one for each client whose queue was found. -/
def newTasks (σ : QueuedBroadcast α) (i : Nat) : QueueTask α :=
  if (σ.queueOf i).isSome then .todo else .finished

/-- All coroutines of a `gather` are done. -/
def gathered (σ : QueuedBroadcast α) (tasks : Nat → QueueTask α) : Bool :=
  (List.range σ.clients.length).all fun i => (tasks i).isFinished

/-- A call of `enqueue`, or its `put` when it looks at the queue again, has run. -/
def settle (σ : QueuedBroadcast α) (payload : α) (tasks : Nat → QueueTask α) (i queue : Nat)
    (o : Outcome α) : QueuedBroadcast α :=
  { σ with
    queues := Function.update σ.queues queue o.queue
    stage := .enqueuing payload (Function.update tasks i (.ofOutcome o)) }

/-- A drain has run. -/
def advance (σ : QueuedBroadcast α) (tasks : Nat → QueueTask α) (i queue : Nat)
    (result : SendQueue α × DrainProgress α) : QueuedBroadcast α :=
  { σ with
    queues := Function.update σ.queues queue result.1
    stage := .draining (Function.update tasks i (.ofProgress result.2)) }

/-- One action; `none` when it is not possible. -/
def step (σ : QueuedBroadcast α) : QueuedAction α → Option (QueuedBroadcast α)
  | .broadcast payload =>
      match σ.stage with
      | .idle => some { σ with stage := .enqueuing payload σ.newTasks }
      | _ => none
  | .enqueue i =>
      match σ.stage with
      | .enqueuing payload tasks =>
          (σ.queueOf i).bind fun queue =>
            match tasks i with
            | .todo => some (σ.settle payload tasks i queue ((σ.queues queue).enqueue payload))
            | _ => none
      | _ => none
  | .wake i =>
      match σ.stage with
      | .enqueuing payload tasks =>
          (σ.queueOf i).bind fun queue =>
            match tasks i with
            | .putting => some (σ.settle payload tasks i queue ((σ.queues queue).put payload))
            | _ => none
      | _ => none
  | .enqueued =>
      match σ.stage with
      | .enqueuing _ tasks =>
          if σ.gathered tasks then some { σ with stage := .draining σ.newTasks } else none
      | _ => none
  | .drain i =>
      match σ.stage with
      | .draining tasks =>
          (σ.queueOf i).bind fun queue =>
            match tasks i with
            | .todo => some (σ.advance tasks i queue ((σ.queues queue).drain 10))
            | _ => none
      | _ => none
  | .send i =>
      match σ.stage with
      | .draining tasks =>
          (σ.queueOf i).bind fun queue =>
            match σ.clients[i]?, tasks i with
            | some c, .sending drain =>
                some <| advance { σ with clients := σ.clients.set i (c.send drain.message) }
                  tasks i queue ((σ.queues queue).sendReturned drain)
            | _, _ => none
      | _ => none
  | .drained =>
      match σ.stage with
      | .draining tasks => if σ.gathered tasks then some { σ with stage := .idle } else none
      | _ => none

end QueuedBroadcast

end WebSocketPatterns.Benchmarks
