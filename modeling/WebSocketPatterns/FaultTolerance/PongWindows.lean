import WebSocketPatterns.FaultTolerance.Heartbeat
import Mathlib.Tactic.Linarith

/-!
# Which windows without a pong are counted

The window of a ping opens when its send has returned and ends with the check.
The check compares the age of the last pong with `interval + timeout`, not with
the ping. It agrees with the window when the window has a pong; when it has
none, it agrees exactly if the last pong was already more than one interval old
when the ping had been sent.
-/

namespace WebSocketPatterns.FaultTolerance.HeartbeatManager

open Transition

variable (m : HeartbeatManager)

/-- A pong was recorded since the last ping had been sent. -/
def ponged (acts : List HeartbeatAction) : Bool :=
  acts.foldl (fun heard a =>
    match a with
    | .sendReturned => false
    | .pong => true
    | _ => heard) false

theorem ponged_snoc (acts : List HeartbeatAction) (a : HeartbeatAction) :
    ponged (acts ++ [a]) =
      match a with
      | .sendReturned => false
      | .pong => true
      | _ => ponged acts := by
  rw [ponged, List.foldl_append]
  cases a <;> rfl

/-- When the ping of the present iteration had been sent. -/
def pingSentAt : LoopPhase → Option ℚ
  | .waiting deadline => some (deadline - m.timeout)
  | _ => none

/-- The action, if it is a check, counts a missed pong exactly when no pong was recorded
since the ping had been sent. -/
def CountsFaithfully (acts : List HeartbeatAction) (σ : HeartbeatState) :
    HeartbeatAction → Prop
  | .check => ∀ τ ∈ m.step σ .check,
      (τ.tracker.missedPongs = σ.tracker.missedPongs + 1 ↔ ponged acts = false)
  | _ => True

instance (acts : List HeartbeatAction) (σ : HeartbeatState) (a : HeartbeatAction) :
    Decidable (m.CountsFaithfully acts σ a) := by
  cases a <;> unfold CountsFaithfully <;> infer_instance

/-- At a check, a pong was recorded since the ping had been sent, or the last pong was then
more than an interval old. -/
def HeardOrLongSilent (acts : List HeartbeatAction) (σ : HeartbeatState) :
    HeartbeatAction → Prop
  | .check => ponged acts = true ∨
      ∀ sentAt ∈ m.pingSentAt σ.phase, m.interval < sentAt - σ.tracker.lastPongAt
  | _ => True

instance (acts : List HeartbeatAction) (σ : HeartbeatState) (a : HeartbeatAction) :
    Decidable (m.HeardOrLongSilent acts σ a) := by
  cases a <;> unfold HeardOrLongSilent <;> infer_instance

/-- The ping was sent in the past, and a pong recorded since is not older than it. -/
structure WindowInv (acts : List HeartbeatAction) (σ : HeartbeatState) : Prop where
  sent : ∀ sentAt ∈ m.pingSentAt σ.phase, sentAt ≤ σ.now
  heard : ponged acts = true → ∀ sentAt ∈ m.pingSentAt σ.phase, sentAt ≤ σ.tracker.lastPongAt

section Steps

variable {m} {acts : List HeartbeatAction} {σ τ : HeartbeatState} {a : HeartbeatAction}

theorem start_windowInv (connectionId : String) (now : ℚ) :
    m.WindowInv [] (m.start connectionId now) where
  sent := by simp [start, nextIteration, pingSentAt]
  heard := by simp [ponged]

theorem WindowInv.step (inv : m.WindowInv acts σ) (h : m.step σ a = some τ) :
    m.WindowInv (acts ++ [a]) τ := by
  cases a with
  | advance duration =>
      obtain ⟨hpos, _, rfl⟩ := step_advance h
      constructor
      · intro sentAt hs
        have hsent := inv.sent sentAt hs
        change sentAt ≤ σ.now + duration
        linarith
      · rw [ponged_snoc]
        exact inv.heard
  | pong =>
      obtain rfl := Option.some.inj h
      exact ⟨inv.sent, fun _ => inv.sent⟩
  | wake =>
      obtain ⟨_, rfl⟩ := step_wake h
      exact ⟨by simp [pingSentAt], by simp [pingSentAt]⟩
  | sendReturned =>
      obtain ⟨_, _, rfl⟩ := step_sendReturned h
      exact ⟨by simp [pingSentAt], by simp [ponged_snoc]⟩
  | sendRaised =>
      obtain ⟨_, _, rfl⟩ := step_sendRaised h
      exact ⟨by simp [pingSentAt], by simp [pingSentAt]⟩
  | check =>
      obtain ⟨_, rfl⟩ := step_check h
      have hnone : m.pingSentAt
          (m.nextIteration σ.now (m.checkPong σ.now σ.tracker)) = none := by
        rw [nextIteration]
        split <;> rfl
      exact ⟨by simp [hnone], by simp [hnone]⟩

/-- A check counts faithfully exactly when the window was heard or long silent before. -/
theorem WindowInv.countsFaithfully_iff (hI : 0 ≤ m.interval) (inv : m.WindowInv acts σ)
    (h : m.step σ a = some τ) : m.CountsFaithfully acts σ a ↔ m.HeardOrLongSilent acts σ a := by
  cases a with
  | check =>
      obtain ⟨hp, hτ⟩ := step_check h
      have hsentAt : m.pingSentAt σ.phase = some (σ.now - m.timeout) := by
        rw [hp]
        rfl
      have hmissed : τ.tracker.missedPongs = σ.tracker.missedPongs + 1 ↔
          m.window < σ.now - σ.tracker.lastPongAt := by
        rw [hτ, checkPong_missedPongs]
        split <;> simp_all
      have hfaithful : m.CountsFaithfully acts σ .check ↔
          (m.window < σ.now - σ.tracker.lastPongAt ↔ ponged acts = false) := by
        simp only [CountsFaithfully, h, Option.mem_def, Option.some.injEq, forall_eq', hmissed]
      rw [hfaithful]
      simp only [HeardOrLongSilent, hsentAt, Option.mem_def, Option.some.injEq, forall_eq']
      cases hponged : ponged acts with
      | true =>
          have hheard := inv.heard hponged _ hsentAt
          have hnot : ¬ m.window < σ.now - σ.tracker.lastPongAt := by
            rw [window]
            linarith
          simp [hnot]
      | false =>
          rw [window]
          constructor
          · intro hiff
            have hlate := hiff.mpr rfl
            refine Or.inr ?_
            linarith
          · rintro (hheard | hsilent)
            · simp at hheard
            · refine iff_of_true ?_ rfl
              linarith
  | _ => exact Iff.rfl

end Steps

variable {m}

/-- In a run every check counts exactly the windows without a pong if and only if at each
check the window was heard, or the last pong was more than an interval old at its ping. -/
theorem counts_faithfully_iff (hI : 0 ≤ m.interval) {connectionId : String} {now : ℚ}
    {acts : List HeartbeatAction} {σ : HeartbeatState}
    (run : Run m.step (m.start connectionId now) acts σ) :
    EachStep m.step (m.start connectionId now) m.CountsFaithfully acts ↔
      EachStep m.step (m.start connectionId now) m.HeardOrLongSilent acts := by
  apply eachStep_congr ?_ run
  intro _ _ _ _ run h
  have inv := run.invariant (start_windowInv connectionId now) fun _ _ _ _ inv h => inv.step h
  exact inv.countsFaithfully_iff hI h

/-- The client answers the first ping in time, and not the second. -/
def answerOnceActs : List HeartbeatAction :=
  [.advance 30, .wake, .sendReturned, .advance 1, .pong, .advance 9, .check, .advance 30, .wake,
    .sendReturned, .advance 10, .check]

theorem counts_faithfully_answerOnce :
    let m : HeartbeatManager := {}
    EachStep m.step (m.start "c" 0) m.CountsFaithfully answerOnceActs := by
  intro m
  have run := run_get
    (show (exec m.step (m.start "c" 0) answerOnceActs).isSome from by decide +kernel)
  apply (counts_faithfully_iff (by decide +kernel) run).mpr
  decide +kernel

/-- The client pongs one second before the first ping, and does not answer the ping. -/
def answeredEarlyActs : List HeartbeatAction :=
  [.advance 29, .pong, .advance 1, .wake, .sendReturned, .advance 10, .check]

/-- The window after the ping has no pong, and its check counts none as missed. -/
theorem answered_early_uncounted :
    let m : HeartbeatManager := {}
    ∃ σ, Run m.step (m.start "c" 0) answeredEarlyActs σ ∧ ponged answeredEarlyActs = false ∧
      σ.now = 40 ∧ σ.tracker.pingCount = 1 ∧ σ.tracker.missedPongs = 0 ∧
      ¬ EachStep m.step (m.start "c" 0) m.CountsFaithfully answeredEarlyActs := by
  intro m
  refine ⟨_, run_get (by decide +kernel), by decide, by decide +kernel, by decide +kernel,
    by decide +kernel, ?_⟩
  decide +kernel

end WebSocketPatterns.FaultTolerance.HeartbeatManager
