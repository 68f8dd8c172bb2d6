import WebSocketPatterns.Transition.Run
import Mathlib.Algebra.Order.Ring.Rat

/-!
# The heartbeat loop

Time is exact and rational. An action lets time pass, records a pong, or takes
the loop of one connection from one await to the next; the loop is woken from a
sleep exactly at its deadline, so time does not pass beyond it, whereas a send
takes the time that passes until it returns or raises.
-/

namespace WebSocketPatterns.FaultTolerance

open Transition

/-- Heartbeat state of a single connection. -/
structure HeartbeatTracker where
  connectionId : String
  lastPongAt : ℚ
  pingCount : Nat := 0
  pongCount : Nat := 0
  missedPongs : Nat := 0
  alive : Bool := true
deriving DecidableEq

/-- The parameters of the heartbeat loop. -/
structure HeartbeatManager where
  interval : ℚ := 30
  timeout : ℚ := 10
  pingMessage : String := "__ping__"
  maxMissed : Int := 2

namespace HeartbeatTracker

/-- Record receipt of a pong message. -/
def recordPong (t : HeartbeatTracker) (now : ℚ) : HeartbeatTracker :=
  { t with lastPongAt := now, pongCount := t.pongCount + 1, missedPongs := 0 }

/-- Elapsed seconds since the last pong. -/
def secondsSincePong (t : HeartbeatTracker) (now : ℚ) : ℚ := now - t.lastPongAt

end HeartbeatTracker

/-- Where the loop is suspended: in the sleep before the ping, in `send_fn(message)`, in the
sleep before the check; or it has ended. -/
inductive LoopPhase
  | sleeping (deadline : ℚ)
  | sending (message : String)
  | waiting (deadline : ℚ)
  | ended
deriving DecidableEq

/-- The time the loop is woken at. -/
def LoopPhase.deadline? : LoopPhase → Option ℚ
  | .sleeping deadline => some deadline
  | .waiting deadline => some deadline
  | _ => none

/-- The loop is suspended in `send_fn`. -/
def LoopPhase.isSending : LoopPhase → Bool
  | .sending _ => true
  | _ => false

/-- The clock, the tracker, and the loop. -/
structure HeartbeatState where
  now : ℚ
  tracker : HeartbeatTracker
  phase : LoopPhase

/-- Time passes, a pong arrives, or the loop goes on. -/
inductive HeartbeatAction
  | advance (duration : ℚ)
  | pong
  | wake
  | sendReturned
  | sendRaised
  | check
deriving DecidableEq

/-- The time that passes with an action. -/
def HeartbeatAction.duration : HeartbeatAction → ℚ
  | .advance duration => duration
  | _ => 0

/-- The time that passes with an action while the loop is in `send_fn`. -/
def HeartbeatState.inSend (σ : HeartbeatState) (a : HeartbeatAction) : ℚ :=
  if σ.phase.isSending then a.duration else 0

theorem HeartbeatState.inSend_of_isSending {σ : HeartbeatState} (h : σ.phase.isSending = true)
    (a : HeartbeatAction) : σ.inSend a = a.duration :=
  if_pos h

theorem HeartbeatState.inSend_of_not_isSending {σ : HeartbeatState}
    (h : σ.phase.isSending = false) (a : HeartbeatAction) : σ.inSend a = 0 := by
  rw [inSend, h]
  rfl

/-- All of the time that passes is spent in the send, or none of it. -/
theorem HeartbeatState.inSend_between (σ : HeartbeatState) {duration : ℚ} (h : 0 ≤ duration) :
    0 ≤ σ.inSend (.advance duration) ∧ σ.inSend (.advance duration) ≤ duration := by
  cases hsending : σ.phase.isSending with
  | true =>
      rw [inSend_of_isSending hsending]
      exact ⟨h, le_rfl⟩
  | false =>
      rw [inSend_of_not_isSending hsending]
      exact ⟨le_rfl, h⟩

namespace HeartbeatManager

variable (m : HeartbeatManager)

/-- The head of the loop: while the tracker is alive, sleep for the interval. -/
def nextIteration (now : ℚ) (t : HeartbeatTracker) : LoopPhase :=
  if t.alive then .sleeping (now + m.interval) else .ended

/-- The end of an iteration: count a missed pong, and give up after `max_missed` of them. -/
def checkPong (now : ℚ) (t : HeartbeatTracker) : HeartbeatTracker :=
  if m.interval + m.timeout < t.secondsSincePong now then
    let t : HeartbeatTracker := { t with missedPongs := t.missedPongs + 1 }
    if m.maxMissed ≤ t.missedPongs then { t with alive := false } else t
  else t

/-- A window without a pong: the length of one iteration whose send takes no time. -/
def window : ℚ := m.interval + m.timeout

/-- `run` creates the tracker and starts the loop. -/
def start (connectionId : String) (now : ℚ) : HeartbeatState :=
  let tracker : HeartbeatTracker := { connectionId := connectionId, lastPongAt := now }
  { now := now
    tracker := tracker
    phase := m.nextIteration now tracker }

/-- One action; `none` when it is not possible at this time. -/
def step (σ : HeartbeatState) : HeartbeatAction → Option HeartbeatState
  | .advance duration =>
      if 0 ≤ duration ∧ ∀ deadline ∈ σ.phase.deadline?, σ.now + duration ≤ deadline then
        some { σ with now := σ.now + duration }
      else none
  | .pong => some { σ with tracker := σ.tracker.recordPong σ.now }
  | .wake =>
      match σ.phase with
      | .sleeping deadline =>
          if σ.now = deadline then
            some { σ with
              tracker := { σ.tracker with pingCount := σ.tracker.pingCount + 1 }
              phase := .sending m.pingMessage }
          else none
      | _ => none
  | .sendReturned =>
      match σ.phase with
      | .sending _ => some { σ with phase := .waiting (σ.now + m.timeout) }
      | _ => none
  | .sendRaised =>
      match σ.phase with
      | .sending _ => some { σ with tracker := { σ.tracker with alive := false }, phase := .ended }
      | _ => none
  | .check =>
      match σ.phase with
      | .waiting deadline =>
          if σ.now = deadline then
            let tracker := m.checkPong σ.now σ.tracker
            some { σ with tracker := tracker, phase := m.nextIteration σ.now tracker }
          else none
      | _ => none

section Steps

variable {m} {σ τ : HeartbeatState}

theorem step_advance {duration : ℚ} (h : m.step σ (.advance duration) = some τ) :
    0 ≤ duration ∧ (∀ deadline ∈ σ.phase.deadline?, σ.now + duration ≤ deadline) ∧
      τ = { σ with now := σ.now + duration } := by
  simp only [step] at h
  split at h
  · rename_i hguard
    exact ⟨hguard.1, hguard.2, (Option.some.inj h).symm⟩
  · simp at h

theorem step_wake (h : m.step σ .wake = some τ) :
    σ.phase = .sleeping σ.now ∧
      τ = { σ with
        tracker := { σ.tracker with pingCount := σ.tracker.pingCount + 1 }
        phase := .sending m.pingMessage } := by
  simp only [step] at h
  split at h
  · rename_i deadline hp
    split at h
    · rename_i hnow
      exact ⟨hnow ▸ hp, (Option.some.inj h).symm⟩
    · simp at h
  · simp at h

theorem step_sendReturned (h : m.step σ .sendReturned = some τ) :
    ∃ message, σ.phase = .sending message ∧
      τ = { σ with phase := .waiting (σ.now + m.timeout) } := by
  simp only [step] at h
  split at h
  · rename_i message hp
    exact ⟨message, hp, (Option.some.inj h).symm⟩
  · simp at h

theorem step_sendRaised (h : m.step σ .sendRaised = some τ) :
    ∃ message, σ.phase = .sending message ∧
      τ = { σ with tracker := { σ.tracker with alive := false }, phase := .ended } := by
  simp only [step] at h
  split at h
  · rename_i message hp
    exact ⟨message, hp, (Option.some.inj h).symm⟩
  · simp at h

theorem step_check (h : m.step σ .check = some τ) :
    σ.phase = .waiting σ.now ∧
      τ = { σ with
        tracker := m.checkPong σ.now σ.tracker
        phase := m.nextIteration σ.now (m.checkPong σ.now σ.tracker) } := by
  simp only [step] at h
  split at h
  · rename_i deadline hp
    split at h
    · rename_i hnow
      exact ⟨hnow ▸ hp, (Option.some.inj h).symm⟩
    · simp at h
  · simp at h

/-- A check counts a missed pong exactly when the last pong is older than the window. -/
theorem checkPong_missedPongs (now : ℚ) (t : HeartbeatTracker) :
    (m.checkPong now t).missedPongs =
      t.missedPongs + if m.window < now - t.lastPongAt then 1 else 0 := by
  unfold checkPong
  by_cases h : m.window < now - t.lastPongAt
  · rw [if_pos (show m.interval + m.timeout < t.secondsSincePong now from h), if_pos h]
    dsimp only
    split <;> rfl
  · rw [if_neg (show ¬ m.interval + m.timeout < t.secondsSincePong now from h), if_neg h]
    rfl

@[simp] theorem checkPong_lastPongAt (now : ℚ) (t : HeartbeatTracker) :
    (m.checkPong now t).lastPongAt = t.lastPongAt := by
  unfold checkPong
  dsimp only
  split
  · split <;> rfl
  · rfl

/-- A check ends a living tracker exactly when it counts the last tolerated miss. -/
theorem checkPong_alive (now : ℚ) (t : HeartbeatTracker) :
    (m.checkPong now t).alive = true ↔ t.alive = true ∧
      (m.window < now - t.lastPongAt → (t.missedPongs + 1 : Int) < m.maxMissed) := by
  unfold checkPong
  by_cases h : m.window < now - t.lastPongAt
  · rw [if_pos (show m.interval + m.timeout < t.secondsSincePong now from h)]
    dsimp only
    split
    · rename_i hmax
      push_cast at hmax
      simp [h, hmax]
    · rename_i hmax
      push_cast at hmax
      simp [h, not_le.mp hmax]
  · rw [if_neg (show ¬ m.interval + m.timeout < t.secondsSincePong now from h)]
    simp [h]

end Steps

end HeartbeatManager

end WebSocketPatterns.FaultTolerance
