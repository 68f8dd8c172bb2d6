import WebSocketPatterns.Backpressure.GlobalStats
import WebSocketPatterns.PubSub.BusRuns
import WebSocketPatterns.Shutdown.CloseAll
import WebSocketPatterns.Shutdown.ConnectionIds

/-!
# The dashboard

The producer publishes one update a tick on the feed; every client's handler
connects through the connection manager, subscribes to the feed and forwards to
its socket what its generator yields. An action is one synchronous step: a handler
runs from one `queue.get()` to the next or to its end, and `CancelledError` reaches
it in `queue.get()`, where alone it is suspended. The bus, its subscribers and the
generators are those of the bus model, with the record it keeps of the run.
-/

namespace WebSocketPatterns.Dashboard

open Backpressure PubSub Shutdown

/-- The payload of `metrics_producer`. -/
structure MetricsUpdate where
  type : String
  tick : Nat
  timestamp : ℚ
  cpuPct : ℚ
  memMb : Nat
  requestRate : Nat
deriving DecidableEq

def feedChannel : String := "metrics:dashboard"

/-- The payload of one tick; `now` is what `time.time()` returns. -/
def metricsUpdate (tick : Nat) (now : ℚ) : MetricsUpdate where
  type := "metrics_update"
  tick := tick
  timestamp := now
  cpuPct := 20 + (tick % 40 : Nat)
  memMb := 512 + tick * 3
  requestRate := 100 + tick % 50 * 2

/-- The stand-in for a client's socket. -/
structure FakeWebSocket where
  clientId : String
  received : List MetricsUpdate := []
  closed : Bool := false

namespace FakeWebSocket

/-- Record an outbound message; the error is that of the `RuntimeError`. -/
def sendJson (ws : FakeWebSocket) (data : MetricsUpdate) : Except String FakeWebSocket :=
  if ws.closed then .error ("Socket " ++ ws.clientId ++ " already closed")
  else .ok { ws with received := ws.received ++ [data] }

def disconnect (ws : FakeWebSocket) : FakeWebSocket := { ws with closed := true }

end FakeWebSocket

/-- The registry and the controller, which live and die with a connection together; queue
objects are named by numbers. -/
structure ConnectionManager where
  registry : ConnectionRegistry
  bp : BackpressureController
  queues : Nat → SendQueue MetricsUpdate
  nextQueue : Nat

namespace ConnectionManager

def new (cfg : BackpressureConfig) : ConnectionManager where
  registry := ConnectionRegistry.new
  bp := BackpressureController.new cfg
  queues := fun _ => SendQueue.new "" cfg.maxQueueSize cfg.strategy
  nextQueue := 0

/-- Register a new connection and create its send queue. -/
def connect (m : ConnectionManager) (draw : Uuid4) (ws : FakeWebSocket) (connectedAt : ℚ)
    (task : Nat) : String × ConnectionManager :=
  let connId := makeConnectionId draw
  (connId,
    { registry := m.registry.register ⟨connId, ws.clientId, connectedAt, task⟩
      bp := m.bp.addConnection connId m.nextQueue
      queues := Function.update m.queues m.nextQueue
        (SendQueue.new connId m.bp.cfg.maxQueueSize m.bp.cfg.strategy)
      nextQueue := m.nextQueue + 1 })

/-- Deregister the connection and remove its send queue. -/
def disconnect (m : ConnectionManager) (connId : String) : ConnectionManager :=
  { m with
    registry := m.registry.deregister connId
    bp := m.bp.removeConnection connId }

def activeCount (m : ConnectionManager) : Nat := m.registry.activeCount

def globalBpStats (m : ConnectionManager) : GlobalStats :=
  m.bp.globalStats fun queue => (m.queues queue).stats

end ConnectionManager

/-- A client's handler; its subscriber is named as the bus names it, and `outcome` says how
its task ended. -/
structure ClientHandler where
  ws : FakeWebSocket
  connId : String
  subscriber : Nat
  deadline : ℚ
  outcome : Option TaskOutcome := none

/-- The manager, the bus, the handlers in the order they connected, and the producer. -/
structure DashboardState where
  manager : ConnectionManager
  feed : BusState MetricsUpdate
  handlers : List ClientHandler
  tick : Nat
  stopEvent : Bool

/-- A handler starts, takes the next item of its queue, or is cancelled in `queue.get()`; the
producer publishes, or is stopped. The times are what the clocks show. -/
inductive DashboardAction
  | connect (draw : Uuid4) (clientId : String) (connectedAt : ℚ) (task : Nat)
      (now lifetime : ℚ)
  | receive (handler : Nat) (now : ℚ)
  | cancel (handler : Nat)
  | produce (now published : ℚ)
  | stop
deriving DecidableEq

namespace DashboardState

def start (cfg : BackpressureConfig) : DashboardState where
  manager := ConnectionManager.new cfg
  feed := BusState.start
  handlers := []
  tick := 0
  stopEvent := false

/-- The `finally` of `client_handler`, and the end of its task. -/
def finish (σ : DashboardState) (i : Nat) (h : ClientHandler) (outcome : TaskOutcome) :
    Option DashboardState :=
  (σ.feed.step (.unsubscribe h.subscriber)).map fun feed =>
    { σ with
      feed := feed
      manager := σ.manager.disconnect h.connId
      handlers := σ.handlers.set i { h with ws := h.ws.disconnect, outcome := some outcome } }

/-- The body of the `async for` on a message, and the test of the deadline. -/
def forward (σ : DashboardState) (i : Nat) (h : ClientHandler) (now : ℚ)
    (msg : Message MetricsUpdate) : Option DashboardState :=
  match h.ws.sendJson msg.payload with
  | .error _ => σ.finish i h .raised
  | .ok ws =>
      let h : ClientHandler := { h with ws := ws }
      if h.deadline ≤ now then σ.finish i h .returned
      else some { σ with handlers := σ.handlers.set i h }

/-- A handler that has not ended. -/
def running (σ : DashboardState) (i : Nat) : Option ClientHandler :=
  (σ.handlers[i]?).filter fun h => h.outcome.isNone

/-- One action; `none` when it is not possible, such as a step of a handler that has ended or
whose queue is empty. -/
def step (σ : DashboardState) : DashboardAction → Option DashboardState
  | .connect draw clientId connectedAt task now lifetime =>
      let ws : FakeWebSocket := { clientId := clientId }
      let connected := σ.manager.connect draw ws connectedAt task
      (σ.feed.step (.subscribe feedChannel connected.1 256)).map fun feed =>
        { σ with
          manager := connected.2
          feed := feed
          handlers := σ.handlers ++ [{
            ws := ws
            connId := connected.1
            subscriber := σ.feed.bus.nextQueue
            deadline := now + lifetime }] }
  | .receive i now =>
      (σ.running i).bind fun h =>
        (σ.feed.bus.queues h.subscriber).getNowait.bind fun got =>
          (σ.feed.step (.consume h.subscriber)).bind fun feed =>
            match got.1 with
            | none => finish { σ with feed := feed } i h .returned
            | some msg => forward { σ with feed := feed } i h now msg
  | .cancel i => (σ.running i).bind fun h => σ.finish i h .returned
  | .produce now published =>
      if σ.stopEvent then none
      else
        (σ.feed.step (.publish feedChannel (metricsUpdate σ.tick now) "producer" true
          published)).map fun feed => { σ with feed := feed, tick := σ.tick + 1 }
  | .stop => some { σ with stopEvent := true }

end DashboardState

end WebSocketPatterns.Dashboard
