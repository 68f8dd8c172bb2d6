import WebSocketPatterns.Collections.Dict
import Mathlib.Algebra.Field.Rat
import Mathlib.Data.List.Dedup

/-!
# The connection registry

Tasks are named by numbers. `close_all` suspends twice, in `asyncio.wait` and
in `gather`; the three definitions at the end run it from its start or from a
suspension to the next one or to its return, and report the tasks on which it
called `cancel()` on the way.
-/

namespace WebSocketPatterns.Shutdown

/-- Metadata about an active WebSocket connection; `task` runs its handler. -/
structure ConnectionInfo where
  connectionId : String
  clientId : String
  connectedAt : ℚ
  task : Nat
deriving DecidableEq

/-- The registry of active connections. -/
structure ConnectionRegistry where
  connections : Dict String ConnectionInfo
  shuttingDown : Bool

/-- Where `close_all` stands: suspended in `asyncio.wait` on its tasks, suspended in `gather`
on the pending ones, or returned; `count` is the number it will return. -/
inductive CloseProgress
  | waiting (count : Nat) (tasks : List Nat)
  | gathering (count : Nat) (pending : List Nat)
  | returned (count : Nat)
deriving DecidableEq

/-- What a run of `close_all` to its next suspension or its return leaves behind. -/
structure CloseStep where
  registry : ConnectionRegistry
  cancels : List Nat
  progress : CloseProgress

namespace ConnectionRegistry

/-- An empty registry. -/
def new : ConnectionRegistry where
  connections := ∅
  shuttingDown := false

/-- Number of currently active connections. -/
def activeCount (r : ConnectionRegistry) : Nat := r.connections.len

/-- True once shutdown has been initiated. -/
def isShuttingDown (r : ConnectionRegistry) : Bool := r.shuttingDown

/-- Register a connection under its id. -/
def register (r : ConnectionRegistry) (info : ConnectionInfo) : ConnectionRegistry :=
  { r with connections := r.connections.set info.connectionId info }

/-- Remove a connection. -/
def deregister (r : ConnectionRegistry) (connectionId : String) : ConnectionRegistry :=
  { r with connections := r.connections.erase connectionId }

/-- Look up a connection by id. -/
def get (r : ConnectionRegistry) (connectionId : String) : Option ConnectionInfo :=
  r.connections.lookup connectionId

/-- The end of `close_all`: clear the whole registry and return the count. -/
def finishClose (r : ConnectionRegistry) (count : Nat) : CloseStep where
  registry := { r with connections := ∅ }
  cancels := []
  progress := .returned count

/-- `close_all` up to `asyncio.wait`: cancel the task of every registered connection. -/
def closeAll (r : ConnectionRegistry) : CloseStep :=
  let r : ConnectionRegistry := { r with shuttingDown := true }
  let count := r.connections.len
  if count = 0 then { registry := r, cancels := [], progress := .returned 0 }
  else
    let tasks := r.connections.values.map ConnectionInfo.task
    if tasks.isEmpty then r.finishClose count
    else { registry := r, cancels := tasks, progress := .waiting count tasks }

/-- `close_all` goes on when `asyncio.wait` returned these tasks as pending. -/
def waitReturned (r : ConnectionRegistry) (count : Nat) (pending : List Nat) : CloseStep :=
  if pending.isEmpty then r.finishClose count
  else { registry := r, cancels := pending, progress := .gathering count pending }

/-- `close_all` goes on when `gather` returned. -/
def gatherReturned (r : ConnectionRegistry) (count : Nat) : CloseStep := r.finishClose count

@[simp] theorem get_new (connectionId : String) : new.get connectionId = none := rfl

theorem get_register (r : ConnectionRegistry) (info : ConnectionInfo) (connectionId : String) :
    (r.register info).get connectionId =
      if connectionId = info.connectionId then some info else r.get connectionId :=
  Dict.lookup_set r.connections info.connectionId connectionId info

theorem get_deregister (r : ConnectionRegistry) (removed connectionId : String) :
    (r.deregister removed).get connectionId =
      if connectionId = removed then none else r.get connectionId :=
  Dict.lookup_erase_eq r.connections removed connectionId

theorem activeCount_register (r : ConnectionRegistry) (info : ConnectionInfo) :
    (r.register info).activeCount =
      if (r.get info.connectionId).isSome then r.activeCount else r.activeCount + 1 :=
  Dict.len_set r.connections info.connectionId info

theorem activeCount_deregister (r : ConnectionRegistry) (connectionId : String) :
    (r.deregister connectionId).activeCount =
      if (r.get connectionId).isSome then r.activeCount - 1 else r.activeCount :=
  Dict.len_erase r.connections connectionId

theorem mem_values_iff (r : ConnectionRegistry) (info : ConnectionInfo) :
    info ∈ r.connections.values ↔ ∃ connectionId, r.get connectionId = some info :=
  Dict.mem_values_iff r.connections info

@[simp] theorem get_finishClose (r : ConnectionRegistry) (count : Nat) (connectionId : String) :
    (r.finishClose count).registry.get connectionId = none := rfl

/-- The first part of `close_all` only sets the flag, and cancels every registered task. -/
theorem closeAll_spec (r : ConnectionRegistry) :
    r.closeAll.registry = { r with shuttingDown := true } ∧
      r.closeAll.cancels = r.connections.values.map ConnectionInfo.task := by
  by_cases h : r.connections.len = 0
  · have hvalues : r.connections.values = [] := by
      rw [Dict.values, List.length_eq_zero_iff.mp h]
      rfl
    simp [closeAll, h, hvalues]
  · have hvalues : r.connections.values ≠ [] := by
      intro he
      apply h
      simpa [Dict.values, Dict.len] using congrArg List.length he
    simp [closeAll, h, hvalues]

theorem get_closeAll (r : ConnectionRegistry) (connectionId : String) :
    r.closeAll.registry.get connectionId = r.get connectionId := by
  rw [r.closeAll_spec.1]
  rfl

/-- Whatever has happened to the connections, `close_all` suspends exactly when there are some. -/
theorem closeAll_progress (r : ConnectionRegistry) :
    r.closeAll.progress =
      if r.activeCount = 0 then .returned 0
      else .waiting r.activeCount (r.connections.values.map ConnectionInfo.task) := by
  by_cases hnone : r.connections.len = 0
  · simp [closeAll, activeCount, hnone]
  · have hvalues : r.connections.values ≠ [] := by
      intro he
      apply hnone
      simpa [Dict.values, Dict.len] using congrArg List.length he
    simp [closeAll, activeCount, hnone, hvalues]

end ConnectionRegistry

end WebSocketPatterns.Shutdown
