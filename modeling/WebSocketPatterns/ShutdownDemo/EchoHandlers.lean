import WebSocketPatterns.Collections.Queues
import WebSocketPatterns.Shutdown.CloseAll
import WebSocketPatterns.Shutdown.ConnectionIds

/-!
# The two handlers of the shutdown demo

Both echo what their client sends. The correct one registers itself and, however
its loop ends, sends a close frame and deregisters; the broken one stays in its
loop on every `Exception`. A handler is suspended in `messages.get()` alone, and
an action takes it from there to the next `get()` or to its end. A task on which
`cancel()` was called is thrown `CancelledError` when it runs next, whether or
not a message waits for it. The task of a handler is named by its position.
-/

namespace WebSocketPatterns.Shutdown

/-- WebSocket close codes. -/
inductive CloseCode
  | normal
  | goingAway
  | protocolError
  | unsupportedData
  | internalError
  | serviceRestart
deriving DecidableEq

def CloseCode.value : CloseCode → Nat
  | .normal => 1000
  | .goingAway => 1001
  | .protocolError => 1002
  | .unsupportedData => 1003
  | .internalError => 1011
  | .serviceRestart => 1012

end WebSocketPatterns.Shutdown

namespace WebSocketPatterns.ShutdownDemo

open Shutdown

/-- What reaches a handler as an exception; all but `cancelled` are `Exception`s. -/
inductive HandlerException
  | eof (text : String)
  | runtimeError (text : String)
  | cancelled
deriving DecidableEq

/-- The stub of a socket. In `messages`, `none` is the client's EOF; `frames` keeps the close
frames that `close` logs, each with the number of its code and its reason. -/
structure FakeWebSocket where
  clientId : String
  messages : AsyncQueue (Option String) := .new 0
  sent : List String := []
  closed : Bool := false
  frames : List (Nat × String) := []

namespace FakeWebSocket

/-- The next inbound message, or EOF; `none` when the call blocks. -/
def receiveText (ws : FakeWebSocket) :
    Option (Except HandlerException String × FakeWebSocket) :=
  ws.messages.getNowait.map fun got =>
    let ws : FakeWebSocket := { ws with messages := got.2 }
    match got.1 with
    | none => (.error (.eof "WebSocket closed by client"), ws)
    | some msg => (.ok msg, ws)

/-- Record an outbound message. -/
def sendText (ws : FakeWebSocket) (text : String) : Except HandlerException FakeWebSocket :=
  if ws.closed then .error (.runtimeError "Socket already closed")
  else .ok { ws with sent := ws.sent ++ [text] }

/-- Send a close frame. -/
def close (ws : FakeWebSocket) (code : CloseCode) (reason : String) : FakeWebSocket :=
  { ws with closed := true, frames := ws.frames ++ [(code.value, reason)] }

/-- A message of the client arrives. -/
def put (ws : FakeWebSocket) (msg : Option String) : Option FakeWebSocket :=
  (ws.messages.putNowait msg).map fun messages => { ws with messages := messages }

/-- The body of both loops: receive a text and echo it; the exception is the one it raises. -/
def echo (ws : FakeWebSocket) : Option (Except HandlerException Unit × FakeWebSocket) :=
  ws.receiveText.map fun received =>
    match received.1 with
    | .error exception => (.error exception, received.2)
    | .ok msg =>
        match received.2.sendText ("echo: " ++ msg) with
        | .error exception => (.error exception, received.2)
        | .ok ws => (.ok (), ws)

end FakeWebSocket

/-- A handler's socket and id, and how its task ended. -/
structure EchoHandler where
  ws : FakeWebSocket
  connId : String
  outcome : Option TaskOutcome := none

/-- The registry, the `close_all` in progress, the handlers in the order they started, and the
tasks on which `cancel()` was called. -/
structure DemoState where
  registry : ConnectionRegistry
  progress : CloseProgress
  handlers : List EchoHandler
  askedToStop : List Nat

/-- A handler starts, takes its next message, or is thrown `CancelledError`; its client sends;
`close_all` is called or goes on. -/
inductive DemoAction
  | connect (draw : Uuid4) (clientId : String) (connectedAt : ℚ)
  | put (handler : Nat) (msg : Option String)
  | receive (handler : Nat)
  | cancelled (handler : Nat)
  | closeAll
  | waitReturns
  | gatherReturns
deriving DecidableEq

namespace DemoState

def start : DemoState where
  registry := ConnectionRegistry.new
  progress := .returned 0
  handlers := []
  askedToStop := []

/-- A handler that has not ended. -/
def running (σ : DemoState) (i : Nat) : Option EchoHandler :=
  (σ.handlers[i]?).filter fun h => h.outcome.isNone

/-- `task.done()`. -/
def isDone (σ : DemoState) (task : Nat) : Bool := (σ.running task).isNone

/-- How the task of `correct_ws_handler` ends when this exception leaves its loop. -/
def outcomeOf : HandlerException → TaskOutcome
  | .eof _ => .returned
  | .cancelled => .cancelled
  | .runtimeError _ => .raised

/-- An exception leaves the loop: the `finally` of `correct_ws_handler`, and the end of its
task. -/
def cleanUp (σ : DemoState) (i : Nat) (h : EchoHandler) (exception : HandlerException) :
    DemoState :=
  { σ with
    registry := σ.registry.deregister h.connId
    handlers := σ.handlers.set i { h with
      ws := h.ws.close .goingAway "Server shutting down"
      outcome := some (outcomeOf exception) } }

/-- `close_all` has run to its next suspension or its return. -/
def resume (σ : DemoState) (result : CloseStep) : DemoState :=
  { σ with
    registry := result.registry
    progress := result.progress
    askedToStop := σ.askedToStop ++ result.cancels }

/-- One action; `none` when it is not possible. -/
def step (σ : DemoState) : DemoAction → Option DemoState
  | .connect draw clientId connectedAt =>
      let connId := makeConnectionId draw
      some { σ with
        registry := σ.registry.register ⟨connId, clientId, connectedAt, σ.handlers.length⟩
        handlers := σ.handlers ++ [{ ws := { clientId := clientId }, connId := connId }] }
  | .put i msg =>
      (σ.handlers[i]?).bind fun h =>
        (h.ws.put msg).map fun ws => { σ with handlers := σ.handlers.set i { h with ws := ws } }
  | .receive i =>
      (σ.running i).bind fun h =>
        if i ∈ σ.askedToStop then none
        else
          h.ws.echo.map fun echoed =>
            let h : EchoHandler := { h with ws := echoed.2 }
            match echoed.1 with
            | .error exception => σ.cleanUp i h exception
            | .ok () => { σ with handlers := σ.handlers.set i h }
  | .cancelled i =>
      (σ.running i).bind fun h =>
        if i ∈ σ.askedToStop then some (σ.cleanUp i h .cancelled) else none
  | .closeAll =>
      match σ.progress with
      | .returned _ => some (σ.resume σ.registry.closeAll)
      | _ => none
  | .waitReturns =>
      match σ.progress with
      | .waiting count tasks =>
          some <| σ.resume <|
            σ.registry.waitReturned count (tasks.dedup.filter fun task => !σ.isDone task)
      | _ => none
  | .gatherReturns =>
      match σ.progress with
      | .gathering count pending =>
          if pending.all σ.isDone then some (σ.resume (σ.registry.gatherReturned count)) else none
      | _ => none

end DemoState

/-- The task of `broken_ws_handler`, which is in no registry. -/
structure BrokenHandler where
  ws : FakeWebSocket
  outcome : Option TaskOutcome := none

/-- The client sends, the handler takes its next message, or is thrown `CancelledError`. -/
inductive BrokenAction
  | put (msg : Option String)
  | receive
  | cancel
deriving DecidableEq

namespace BrokenHandler

/-- The handler after an exception in its loop: `except Exception` stays in the loop, and a
`CancelledError` is not an `Exception`. -/
def except (h : BrokenHandler) : HandlerException → BrokenHandler
  | .cancelled => { h with outcome := some .cancelled }
  | .eof _ => h
  | .runtimeError _ => h

def step (h : BrokenHandler) : BrokenAction → Option BrokenHandler
  | .put msg => (h.ws.put msg).map fun ws => { h with ws := ws }
  | .receive =>
      if h.outcome.isSome then none
      else
        h.ws.echo.map fun echoed =>
          let h : BrokenHandler := { h with ws := echoed.2 }
          match echoed.1 with
          | .error exception => h.except exception
          | .ok () => h
  | .cancel => if h.outcome.isSome then none else some (h.except .cancelled)

end BrokenHandler

end WebSocketPatterns.ShutdownDemo
