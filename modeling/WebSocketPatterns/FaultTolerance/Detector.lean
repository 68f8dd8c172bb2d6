import WebSocketPatterns.Collections.Dict
import WebSocketPatterns.Transition.Run
import Mathlib.Algebra.Order.Ring.Rat
import Mathlib.Logic.Function.Basic

/-!
# The dead client detector

`ConnectionHealth` objects are shared between the detector and the handlers
that record activity on them, so they live in a heap and the detector maps ids
to their names. `run_sweep_loop` suspends in its sleep and in each `on_dead`;
an action runs it from one of these to the next. The clock never goes back.
-/

namespace WebSocketPatterns.FaultTolerance

open Transition

/-- Aggregated health metrics of a connection. -/
structure ConnectionHealth where
  connectionId : String
  messagesSent : Nat := 0
  messagesReceived : Nat := 0
  lastActivityAt : ℚ
  errors : Nat := 0
deriving DecidableEq

namespace ConnectionHealth

/-- Record a message sent to the client. -/
def recordSend (h : ConnectionHealth) (now : ℚ) : ConnectionHealth :=
  { h with messagesSent := h.messagesSent + 1, lastActivityAt := now }

/-- Record a message received from the client. -/
def recordReceive (h : ConnectionHealth) (now : ℚ) : ConnectionHealth :=
  { h with messagesReceived := h.messagesReceived + 1, lastActivityAt := now }

/-- Record a communication error. -/
def recordError (h : ConnectionHealth) : ConnectionHealth := { h with errors := h.errors + 1 }

/-- Seconds since the last message activity. -/
def idleSeconds (h : ConnectionHealth) (now : ℚ) : ℚ := now - h.lastActivityAt

end ConnectionHealth

/-- The threshold and the tracked objects by connection id. -/
structure DeadClientDetector where
  idleThreshold : ℚ := 60
  connections : Dict String Nat

namespace DeadClientDetector

/-- A detector that tracks nothing. -/
def new (idleThreshold : ℚ) : DeadClientDetector where
  idleThreshold := idleThreshold
  connections := ∅

/-- Track an object under its connection id. -/
def track (d : DeadClientDetector) (connectionId : String) (health : Nat) : DeadClientDetector :=
  { d with connections := d.connections.set connectionId health }

/-- Remove a connection from tracking. -/
def untrack (d : DeadClientDetector) (connectionId : String) : DeadClientDetector :=
  { d with connections := d.connections.erase connectionId }

/-- The object tracked under an id. -/
def tracked (d : DeadClientDetector) (connectionId : String) : Option Nat :=
  d.connections.lookup connectionId

/-- The tracked objects that have been idle for longer than the threshold. -/
def findDead (d : DeadClientDetector) (heap : Nat → ConnectionHealth) (now : ℚ) : List Nat :=
  d.connections.values.filter fun h => decide (d.idleThreshold < (heap h).idleSeconds now)

theorem tracked_track (d : DeadClientDetector) (added connectionId : String) (health : Nat) :
    (d.track added health).tracked connectionId =
      if connectionId = added then some health else d.tracked connectionId :=
  Dict.lookup_set d.connections added connectionId health

theorem tracked_untrack (d : DeadClientDetector) (removed connectionId : String) :
    (d.untrack removed).tracked connectionId =
      if connectionId = removed then none else d.tracked connectionId :=
  Dict.lookup_erase_eq d.connections removed connectionId

end DeadClientDetector

/-- Where the sweep loop is suspended: in its sleep, or in `on_dead(current)` with the rest of
the dead connections still to report. -/
inductive SweepPhase
  | sleeping
  | reporting (current : Nat) (rest : List Nat)
deriving DecidableEq

/-- The object being reported. -/
def SweepPhase.current? : SweepPhase → Option Nat
  | .sleeping => none
  | .reporting current _ => some current

/-- The clock, the detector, the health objects, and the sweep loop. -/
structure DetectorState where
  now : ℚ
  detector : DeadClientDetector
  heap : Nat → ConnectionHealth
  phase : SweepPhase

/-- Time passes, a handler calls the detector or records activity, the loop wakes for a
sweep, or the awaited `on_dead` returns or raises an `Exception`. -/
inductive DetectorAction
  | advance (duration : ℚ)
  | track (health : Nat)
  | untrack (connectionId : String)
  | recordSend (health : Nat)
  | recordReceive (health : Nat)
  | recordError (health : Nat)
  | wake
  | onDeadDone (raised : Bool)
deriving DecidableEq

namespace DetectorState

/-- Nothing is tracked; the health objects are those the clients will use. -/
def start (idleThreshold now : ℚ) (heap : Nat → ConnectionHealth) : DetectorState where
  now := now
  detector := DeadClientDetector.new idleThreshold
  heap := heap
  phase := .sleeping

/-- The connection id of an object. -/
def idOf (σ : DetectorState) (health : Nat) : String := (σ.heap health).connectionId

/-- The head of `for health in dead`: call `on_dead` on the next object, or sleep. -/
def reportNext : List Nat → SweepPhase
  | [] => .sleeping
  | health :: rest => .reporting health rest

/-- Change one health object. -/
def modify (σ : DetectorState) (health : Nat) (f : ConnectionHealth → ConnectionHealth) :
    DetectorState :=
  { σ with heap := Function.update σ.heap health (f (σ.heap health)) }

/-- One action; `none` when it is not possible. An exception of `on_dead` is suppressed. -/
def step (σ : DetectorState) : DetectorAction → Option DetectorState
  | .advance duration =>
      if 0 ≤ duration then some { σ with now := σ.now + duration } else none
  | .track health => some { σ with detector := σ.detector.track (σ.idOf health) health }
  | .untrack connectionId => some { σ with detector := σ.detector.untrack connectionId }
  | .recordSend health => some (σ.modify health fun h => h.recordSend σ.now)
  | .recordReceive health => some (σ.modify health fun h => h.recordReceive σ.now)
  | .recordError health => some (σ.modify health ConnectionHealth.recordError)
  | .wake =>
      match σ.phase with
      | .sleeping => some { σ with phase := reportNext (σ.detector.findDead σ.heap σ.now) }
      | _ => none
  | .onDeadDone _ =>
      match σ.phase with
      | .reporting current rest =>
          some { σ with
            detector := σ.detector.untrack (σ.idOf current)
            phase := reportNext rest }
      | _ => none

section Inversion

variable {σ τ : DetectorState}

theorem step_advance {duration : ℚ} (h : σ.step (.advance duration) = some τ) :
    0 ≤ duration ∧ τ = { σ with now := σ.now + duration } := by
  simp only [step] at h
  split at h
  · rename_i hpos
    exact ⟨hpos, (Option.some.inj h).symm⟩
  · simp at h

theorem step_wake (h : σ.step .wake = some τ) :
    τ = { σ with phase := reportNext (σ.detector.findDead σ.heap σ.now) } := by
  simp only [step] at h
  split at h
  · exact (Option.some.inj h).symm
  · simp at h

theorem sleeping_of_wake (h : σ.step .wake = some τ) : σ.phase = .sleeping := by
  simp only [step] at h
  split at h
  · assumption
  · simp at h

theorem step_onDeadDone {raised : Bool} (h : σ.step (.onDeadDone raised) = some τ) :
    ∃ current rest, σ.phase = .reporting current rest ∧
      τ = { σ with
        detector := σ.detector.untrack (σ.idOf current)
        phase := reportNext rest } := by
  simp only [step] at h
  split at h
  · rename_i current rest hp
    exact ⟨current, rest, hp, (Option.some.inj h).symm⟩
  · simp at h

end Inversion

end DetectorState

end WebSocketPatterns.FaultTolerance
