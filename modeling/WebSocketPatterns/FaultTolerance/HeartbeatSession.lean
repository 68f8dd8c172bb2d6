import WebSocketPatterns.FaultTolerance.Heartbeat

/-!
# The context around the heartbeat loop

`run` starts the loop as a task. When the body of the context ends, it cancels
the task and awaits it with `CancelledError` suppressed. A cancelled sleep ends
the loop at once, whereas a cancelled send ends as `send_fn` likes: it may raise
the `CancelledError`, which `except Exception` lets pass, raise something else,
or return, and then the loop goes on. A handler that is cancelled while it
awaits the task passes the cancel on to the task. No time passes while a task is
ready to run.
-/

namespace WebSocketPatterns.FaultTolerance

open Transition

/-- How the body of the context ended. -/
inductive BodyOutcome
  | returned
  | raised
  | cancelled
deriving DecidableEq

/-- Where the handler stands: in the body, in `await task`, or behind the context, with the
outcome it leaves with. -/
inductive HandlerPhase
  | inside
  | exiting (outcome : BodyOutcome)
  | left (outcome : BodyOutcome)
deriving DecidableEq

/-- The loop and its tracker, whether a cancel is on its way to the loop, and the handler. -/
structure SessionState where
  heartbeat : HeartbeatState
  cancelling : Bool
  handler : HandlerPhase

/-- Time, pongs and the loop's own steps; the loop ends with a `CancelledError`; the body ends;
the handler is cancelled in its exit; and the await of the loop is over. -/
inductive SessionAction
  | heartbeat (a : HeartbeatAction)
  | loopCancelled
  | leave (outcome : BodyOutcome)
  | cancelHandler
  | awaited
deriving DecidableEq

/-- A loop that sleeps is not in a send and has not ended. -/
theorem LoopPhase.running_of_asleep {phase : LoopPhase} (h : phase.deadline?.isSome = true) :
    phase.isSending = false ∧ phase ≠ .ended := by
  cases phase with
  | sleeping deadline => exact ⟨rfl, by simp⟩
  | waiting deadline => exact ⟨rfl, by simp⟩
  | sending message => simp [deadline?] at h
  | ended => simp [deadline?] at h

/-- The body has ended and the context has not been left. -/
def HandlerPhase.isExiting : HandlerPhase → Bool
  | .exiting _ => true
  | _ => false

namespace SessionState

/-- The loop's sleep was cancelled, so that the loop is ready to end. -/
def interrupted (σ : SessionState) : Bool := σ.cancelling && !σ.heartbeat.phase.isSending

/-- The handler awaits a loop that has ended, so that it is ready to go on. -/
def awaitOver (σ : SessionState) : Bool :=
  σ.handler.isExiting && decide (σ.heartbeat.phase = .ended)

/-- What the cancels and the await leave possible. -/
def allows (σ : SessionState) : HeartbeatAction → Bool
  | .advance _ => !σ.interrupted && !σ.awaitOver
  | .pong => true
  | _ => !σ.interrupted

/-- The context has been left, or the loop has ended or is being cancelled. -/
def StopsLoop (σ : SessionState) : Prop :=
  σ.handler.isExiting = true → σ.cancelling = true ∨ σ.heartbeat.phase = .ended

/-- What is seen of the loop between two states: it has sent no ping, and if it sleeps, it slept
before, and no time has passed. -/
structure LoopIdles (σ τ : SessionState) : Prop where
  pings : τ.heartbeat.tracker.pingCount = σ.heartbeat.tracker.pingCount
  sleeps : τ.heartbeat.phase.deadline?.isSome = true →
    τ.heartbeat.phase = σ.heartbeat.phase ∧ τ.heartbeat.now = σ.heartbeat.now

end SessionState

namespace HeartbeatManager

variable (m : HeartbeatManager)

/-- The context is entered. -/
def enter (connectionId : String) (now : ℚ) : SessionState where
  heartbeat := m.start connectionId now
  cancelling := false
  handler := .inside

/-- `task.cancel()`, which does nothing to a task that is done. -/
def cancelLoop (σ : SessionState) : SessionState :=
  { σ with cancelling := decide (σ.heartbeat.phase ≠ .ended) }

/-- One action of the handler, its loop, or the clock; `none` when it is not possible. -/
def sessionStep (σ : SessionState) : SessionAction → Option SessionState
  | .heartbeat a =>
      if σ.allows a then
        (m.step σ.heartbeat a).map fun h =>
          { σ with
            heartbeat := h
            cancelling := σ.cancelling && decide (a ≠ .sendReturned) &&
              decide (h.phase ≠ .ended) }
      else none
  | .loopCancelled =>
      if σ.interrupted || σ.heartbeat.phase.isSending then
        some { σ with heartbeat := { σ.heartbeat with phase := .ended }, cancelling := false }
      else none
  | .leave outcome =>
      match σ.handler with
      | .inside => some (cancelLoop { σ with handler := .exiting outcome })
      | _ => none
  | .cancelHandler =>
      match σ.handler with
      | .exiting _ => some (cancelLoop σ)
      | _ => none
  | .awaited =>
      match σ.handler with
      | .exiting outcome =>
          if σ.heartbeat.phase = .ended then some { σ with handler := .left outcome } else none
      | _ => none

/-- If the action is taken in the exit, the loop neither pings nor sleeps meanwhile. -/
def IdlesInExit (σ : SessionState) (a : SessionAction) : Prop :=
  σ.handler.isExiting = true → ∀ τ ∈ m.sessionStep σ a, σ.LoopIdles τ

section Inversion

variable {m} {σ τ : SessionState}

theorem sessionStep_heartbeat {a : HeartbeatAction}
    (h : m.sessionStep σ (.heartbeat a) = some τ) :
    σ.allows a = true ∧ ∃ next, m.step σ.heartbeat a = some next ∧
      τ = { σ with
        heartbeat := next
        cancelling := σ.cancelling && decide (a ≠ .sendReturned) &&
          decide (next.phase ≠ .ended) } := by
  simp only [sessionStep] at h
  obtain ⟨hallows, h⟩ := Option.ite_none_right_eq_some.mp h
  obtain ⟨next, hstep, hτ⟩ := Option.map_eq_some_iff.mp h
  exact ⟨hallows, next, hstep, hτ.symm⟩

theorem sessionStep_loopCancelled (h : m.sessionStep σ .loopCancelled = some τ) :
    τ = { σ with heartbeat := { σ.heartbeat with phase := .ended }, cancelling := false } := by
  simp only [sessionStep] at h
  obtain ⟨_, h⟩ := Option.ite_none_right_eq_some.mp h
  exact (Option.some.inj h).symm

theorem sessionStep_leave {outcome : BodyOutcome}
    (h : m.sessionStep σ (.leave outcome) = some τ) :
    σ.handler = .inside ∧ τ = cancelLoop { σ with handler := .exiting outcome } := by
  simp only [sessionStep] at h
  split at h
  · rename_i hinside
    exact ⟨hinside, (Option.some.inj h).symm⟩
  · simp at h

theorem sessionStep_cancelHandler (h : m.sessionStep σ .cancelHandler = some τ) :
    σ.handler.isExiting = true ∧ τ = cancelLoop σ := by
  simp only [sessionStep] at h
  split at h
  · rename_i outcome hexiting
    exact ⟨by rw [hexiting]; rfl, (Option.some.inj h).symm⟩
  · simp at h

theorem sessionStep_awaited (h : m.sessionStep σ .awaited = some τ) :
    ∃ outcome, σ.handler = .exiting outcome ∧ σ.heartbeat.phase = .ended ∧
      τ = { σ with handler := .left outcome } := by
  simp only [sessionStep] at h
  split at h
  · rename_i outcome hexiting
    obtain ⟨hended, h⟩ := Option.ite_none_right_eq_some.mp h
    exact ⟨outcome, hexiting, hended, (Option.some.inj h).symm⟩
  · simp at h

/-- A step of a loop that has ended changes neither its phase nor its pings. -/
theorem step_of_ended {σ τ : HeartbeatState} {a : HeartbeatAction} (hended : σ.phase = .ended)
    (h : m.step σ a = some τ) :
    τ.phase = .ended ∧ τ.tracker.pingCount = σ.tracker.pingCount := by
  cases a with
  | advance duration =>
      obtain ⟨_, _, rfl⟩ := step_advance h
      exact ⟨hended, rfl⟩
  | pong =>
      obtain rfl := Option.some.inj h
      exact ⟨hended, rfl⟩
  | wake => simp [step, hended] at h
  | sendReturned => simp [step, hended] at h
  | sendRaised => simp [step, hended] at h
  | check => simp [step, hended] at h

end Inversion

section Steps

variable {m} {σ₀ σ τ : SessionState} {a : SessionAction} {outcome : BodyOutcome}

theorem cancelLoop_stopsLoop (σ : SessionState) : (cancelLoop σ).StopsLoop := by
  intro _
  by_cases hended : σ.heartbeat.phase = .ended
  · exact Or.inr hended
  · exact Or.inl (decide_eq_true hended)

/-- While an exit stops its loop, a step keeps it so unless it is a send that returns. -/
theorem step_stopsLoop_iff (hstops : σ.StopsLoop) (h : m.sessionStep σ a = some τ) :
    τ.StopsLoop ↔ (σ.handler.isExiting = true → a ≠ .heartbeat .sendReturned) := by
  cases a with
  | heartbeat a =>
      obtain ⟨_, next, hstep, rfl⟩ := sessionStep_heartbeat h
      cases hexiting : σ.handler.isExiting with
      | false => simp [SessionState.StopsLoop, hexiting]
      | true =>
          simp only [SessionState.StopsLoop, hexiting, forall_const]
          rcases hstops hexiting with hcancelling | hended
          · by_cases ha : a = .sendReturned
            · subst ha
              obtain ⟨_, _, rfl⟩ := step_sendReturned hstep
              simp
            · by_cases hnext : next.phase = .ended
              · simp [ha, hnext]
              · simp [ha, hcancelling, hnext]
          · obtain ⟨hnext, _⟩ := step_of_ended hended hstep
            refine iff_of_true (Or.inr hnext) ?_
            intro ha
            obtain rfl := SessionAction.heartbeat.inj ha
            simp [HeartbeatManager.step, hended] at hstep
  | loopCancelled =>
      obtain rfl := sessionStep_loopCancelled h
      exact iff_of_true (fun _ => Or.inr rfl) (by simp)
  | leave outcome =>
      obtain ⟨_, rfl⟩ := sessionStep_leave h
      exact iff_of_true (cancelLoop_stopsLoop _) (by simp)
  | cancelHandler =>
      obtain ⟨_, rfl⟩ := sessionStep_cancelHandler h
      exact iff_of_true (cancelLoop_stopsLoop _) (by simp)
  | awaited =>
      obtain ⟨_, _, _, rfl⟩ := sessionStep_awaited h
      exact iff_of_true (by simp [SessionState.StopsLoop, HandlerPhase.isExiting]) (by simp)

/-- How an exit goes on that was begun with this outcome, as long as no send returns. -/
structure Quiet (σ₀ : SessionState) (outcome : BodyOutcome) (σ : SessionState) : Prop where
  handler : σ.handler = .exiting outcome ∨ σ.handler = .left outcome ∧ σ.heartbeat.phase = .ended
  stops : σ.cancelling = true ∨ σ.heartbeat.phase = .ended
  pings : σ.heartbeat.tracker.pingCount = σ₀.heartbeat.tracker.pingCount
  atOnce : σ₀.heartbeat.phase.isSending = false → σ.heartbeat.phase.isSending = false ∧
    (σ.handler = .exiting outcome → σ.heartbeat.now = σ₀.heartbeat.now)

/-- A loop that is to stop and neither sends nor has ended is ready to end. -/
theorem interrupted_of_stops (hstops : σ.cancelling = true ∨ σ.heartbeat.phase = .ended)
    (hsending : σ.heartbeat.phase.isSending = false) (hrunning : σ.heartbeat.phase ≠ .ended) :
    σ.interrupted = true := by
  rw [SessionState.interrupted, hsending, hstops.resolve_right hrunning]
  rfl

/-- A step of a loop that is cancelled or has ended sends no ping. -/
theorem step_pings {next : HeartbeatState} {b : HeartbeatAction}
    (hstops : σ.cancelling = true ∨ σ.heartbeat.phase = .ended) (hallows : σ.allows b = true)
    (h : m.step σ.heartbeat b = some next) :
    next.tracker.pingCount = σ.heartbeat.tracker.pingCount := by
  cases b with
  | wake =>
      obtain ⟨hp, _⟩ := step_wake h
      have hready := interrupted_of_stops hstops (by rw [hp]; rfl) (by simp [hp])
      simp [SessionState.allows, hready] at hallows
  | check =>
      obtain ⟨hp, _⟩ := step_check h
      have hready := interrupted_of_stops hstops (by rw [hp]; rfl) (by simp [hp])
      simp [SessionState.allows, hready] at hallows
  | advance duration =>
      obtain ⟨_, _, rfl⟩ := step_advance h
      rfl
  | pong =>
      obtain rfl := Option.some.inj h
      rfl
  | sendReturned =>
      obtain ⟨_, _, rfl⟩ := step_sendReturned h
      rfl
  | sendRaised =>
      obtain ⟨_, _, rfl⟩ := step_sendRaised h
      rfl

/-- A loop that is cancelled or has ended falls asleep only if its send returns, and no time
passes in a sleep it was in. -/
theorem step_sleeps {next : HeartbeatState} {b : HeartbeatAction}
    (hstops : σ.cancelling = true ∨ σ.heartbeat.phase = .ended) (hallows : σ.allows b = true)
    (h : m.step σ.heartbeat b = some next) (hreturns : b ≠ .sendReturned)
    (hsleeps : next.phase.deadline?.isSome = true) :
    next.phase = σ.heartbeat.phase ∧ next.now = σ.heartbeat.now := by
  cases b with
  | advance duration =>
      obtain ⟨_, _, rfl⟩ := step_advance h
      obtain ⟨hsending, hrunning⟩ := LoopPhase.running_of_asleep hsleeps
      have hready := interrupted_of_stops hstops hsending hrunning
      simp [SessionState.allows, hready] at hallows
  | pong =>
      obtain rfl := Option.some.inj h
      exact ⟨rfl, rfl⟩
  | wake =>
      obtain ⟨_, rfl⟩ := step_wake h
      simp [LoopPhase.deadline?] at hsleeps
  | sendReturned => exact absurd rfl hreturns
  | sendRaised =>
      obtain ⟨_, _, rfl⟩ := step_sendRaised h
      simp [LoopPhase.deadline?] at hsleeps
  | check =>
      obtain ⟨hp, _⟩ := step_check h
      have hready := interrupted_of_stops hstops (by rw [hp]; rfl) (by simp [hp])
      simp [SessionState.allows, hready] at hallows

/-- While an exit stops its loop, the loop idles in a step unless that is a send that returns. -/
theorem step_idles_iff (hstops : σ.StopsLoop) (h : m.sessionStep σ a = some τ) :
    m.IdlesInExit σ a ↔ (σ.handler.isExiting = true → a ≠ .heartbeat .sendReturned) := by
  simp only [IdlesInExit, h, Option.mem_def, Option.some.injEq, forall_eq']
  apply forall_congr'
  intro hexiting
  have hstops := hstops hexiting
  cases a with
  | heartbeat b =>
      obtain ⟨hallows, next, hnext, rfl⟩ := sessionStep_heartbeat h
      constructor
      · rintro hidles ha
        obtain rfl := SessionAction.heartbeat.inj ha
        obtain ⟨message, hp, rfl⟩ := step_sendReturned hnext
        have hsame := (hidles.sleeps rfl).1
        simp [hp] at hsame
      · intro ha
        have hb : b ≠ .sendReturned := fun hb => ha (congrArg SessionAction.heartbeat hb)
        exact ⟨step_pings hstops hallows hnext, step_sleeps hstops hallows hnext hb⟩
  | loopCancelled =>
      obtain rfl := sessionStep_loopCancelled h
      exact iff_of_true ⟨rfl, by simp [LoopPhase.deadline?]⟩ (by simp)
  | leave outcome =>
      obtain ⟨hinside, _⟩ := sessionStep_leave h
      simp [hinside, HandlerPhase.isExiting] at hexiting
  | cancelHandler =>
      obtain ⟨_, rfl⟩ := sessionStep_cancelHandler h
      exact iff_of_true ⟨rfl, fun _ => ⟨rfl, rfl⟩⟩ (by simp)
  | awaited =>
      obtain ⟨_, _, _, rfl⟩ := sessionStep_awaited h
      exact iff_of_true ⟨rfl, fun _ => ⟨rfl, rfl⟩⟩ (by simp)

/-- While nothing is in flight, the exit takes no time. -/
theorem step_atOnce {next : HeartbeatState} {b : HeartbeatAction}
    (hstops : σ.cancelling = true ∨ σ.heartbeat.phase = .ended)
    (hsending : σ.heartbeat.phase.isSending = false) (hallows : σ.allows b = true)
    (h : m.step σ.heartbeat b = some next) :
    next.phase.isSending = false ∧
      (σ.handler.isExiting = true → next.now = σ.heartbeat.now) := by
  cases b with
  | advance duration =>
      obtain ⟨_, _, rfl⟩ := step_advance h
      refine ⟨hsending, ?_⟩
      intro hexiting
      by_cases hended : σ.heartbeat.phase = .ended
      · simp [SessionState.allows, SessionState.awaitOver, hexiting, hended] at hallows
      · have hready := interrupted_of_stops hstops hsending hended
        simp [SessionState.allows, hready] at hallows
  | pong =>
      obtain rfl := Option.some.inj h
      exact ⟨hsending, fun _ => rfl⟩
  | wake =>
      obtain ⟨hp, _⟩ := step_wake h
      have hready := interrupted_of_stops hstops hsending (by simp [hp])
      simp [SessionState.allows, hready] at hallows
  | sendReturned =>
      obtain ⟨_, _, rfl⟩ := step_sendReturned h
      exact ⟨rfl, fun _ => rfl⟩
  | sendRaised =>
      obtain ⟨_, _, rfl⟩ := step_sendRaised h
      exact ⟨rfl, fun _ => rfl⟩
  | check =>
      obtain ⟨_, rfl⟩ := step_check h
      refine ⟨?_, fun _ => rfl⟩
      simp only [nextIteration]
      split <;> rfl

theorem Quiet.step (h : Quiet σ₀ outcome σ) (hstep : m.sessionStep σ a = some τ)
    (hreturns : a ≠ .heartbeat .sendReturned) : Quiet σ₀ outcome τ := by
  cases a with
  | heartbeat b =>
      obtain ⟨hallows, next, hnext, rfl⟩ := sessionStep_heartbeat hstep
      constructor
      case handler =>
        refine h.handler.imp_right ?_
        rintro ⟨hleft, hended⟩
        exact ⟨hleft, (step_of_ended hended hnext).1⟩
      case stops =>
        by_cases hended : next.phase = .ended
        · exact Or.inr hended
        · rcases h.stops with hcancelling | hbefore
          · have hb : b ≠ .sendReturned := fun hb => hreturns (congrArg SessionAction.heartbeat hb)
            simp [hcancelling, hb, hended]
          · exact absurd (step_of_ended hbefore hnext).1 hended
      case pings =>
        rw [← h.pings]
        exact step_pings h.stops hallows hnext
      case atOnce =>
        intro hnone
        obtain ⟨hsending, hnow⟩ := h.atOnce hnone
        obtain ⟨hafter, hsame⟩ := step_atOnce h.stops hsending hallows hnext
        refine ⟨hafter, ?_⟩
        intro hexiting
        have hexiting' : σ.handler = .exiting outcome := hexiting
        rw [hsame (by rw [hexiting']; rfl), hnow hexiting']
  | loopCancelled =>
      obtain rfl := sessionStep_loopCancelled hstep
      refine ⟨?_, Or.inr rfl, h.pings, ?_⟩
      · exact h.handler.imp_right fun hleft => ⟨hleft.1, rfl⟩
      · intro hnone
        exact ⟨rfl, (h.atOnce hnone).2⟩
  | leave other =>
      obtain ⟨hinside, _⟩ := sessionStep_leave hstep
      rcases h.handler with hexiting | ⟨hleft, _⟩
      · simp [hinside] at hexiting
      · simp [hinside] at hleft
  | cancelHandler =>
      obtain ⟨hexiting, rfl⟩ := sessionStep_cancelHandler hstep
      refine ⟨h.handler, ?_, h.pings, h.atOnce⟩
      exact cancelLoop_stopsLoop σ hexiting
  | awaited =>
      obtain ⟨other, hexiting, hended, rfl⟩ := sessionStep_awaited hstep
      obtain rfl : other = outcome := by
        rcases h.handler with hsame | ⟨hleft, _⟩
        · exact HandlerPhase.exiting.inj (hexiting.symm.trans hsame)
        · simp [hexiting] at hleft
      refine ⟨Or.inr ⟨rfl, hended⟩, h.stops, h.pings, ?_⟩
      intro hnone
      exact ⟨(h.atOnce hnone).1, by simp⟩

/-- An exit that stops its loop can be completed at once. -/
theorem Quiet.exists_left (h : Quiet σ₀ outcome σ) :
    ∃ acts τ, Run m.sessionStep σ acts τ ∧ τ.handler = .left outcome ∧
      τ.heartbeat.now = σ.heartbeat.now := by
  rcases h.handler with hexiting | ⟨hleft, _⟩
  · by_cases hended : σ.heartbeat.phase = .ended
    · refine ⟨[.awaited], { σ with handler := .left outcome }, ?_, rfl, rfl⟩
      apply Run.cons_iff.mpr
      refine ⟨_, ?_, Run.nil⟩
      simp [sessionStep, hexiting, hended]
    · have hcancelling := h.stops.resolve_right hended
      refine ⟨[.loopCancelled, .awaited],
        { heartbeat := { σ.heartbeat with phase := .ended }
          cancelling := false
          handler := .left outcome }, ?_, rfl, rfl⟩
      apply Run.cons_iff.mpr
      refine ⟨{ σ with heartbeat := { σ.heartbeat with phase := .ended }, cancelling := false },
        ?_, ?_⟩
      · cases hsending : σ.heartbeat.phase.isSending <;>
          simp [sessionStep, SessionState.interrupted, hcancelling, hsending]
      · apply Run.cons_iff.mpr
        refine ⟨_, ?_, Run.nil⟩
        simp [sessionStep, hexiting]
  · exact ⟨[], σ, Run.nil, hleft, rfl⟩

end Steps

variable {m}

section Runs

variable {connectionId : String} {now : ℚ} {acts : List SessionAction} {σ : SessionState}
  (run : Run m.sessionStep (m.enter connectionId now) acts σ)

theorem enter_stopsLoop (connectionId : String) (now : ℚ) :
    (m.enter connectionId now).StopsLoop := by
  simp [SessionState.StopsLoop, enter, HandlerPhase.isExiting]

include run

theorem stopsLoop_iff_of_run :
    Throughout m.sessionStep (m.enter connectionId now) (fun _ σ => σ.StopsLoop) acts ↔
      EachStep m.sessionStep (m.enter connectionId now)
        (fun _ σ a => σ.handler.isExiting = true → a ≠ .heartbeat .sendReturned) acts := by
  apply throughout_iff_eachStep (enter_stopsLoop connectionId now) ?_ run
  intro _ _ _ _ _ hstops h
  exact step_stopsLoop_iff hstops h

/-- The loop is seen to be stopped exactly when it is. -/
theorem stopsLoop_iff_idles_of_run :
    Throughout m.sessionStep (m.enter connectionId now) (fun _ σ => σ.StopsLoop) acts ↔
      EachStep m.sessionStep (m.enter connectionId now) (fun _ σ a => m.IdlesInExit σ a)
        acts := by
  apply throughout_iff_eachStep (enter_stopsLoop connectionId now) ?_ run
  intro _ _ _ _ _ hstops h
  exact (step_stopsLoop_iff hstops h).trans (step_idles_iff hstops h).symm

end Runs

/-- In every run, from the end of the body until the context is left no ping is sent, the loop
falls asleep nowhere and no time passes in a sleep, if and only if no send returns in that
time; and exactly then the loop has ended or is being cancelled at each of its moments. -/
theorem exit_stops_loop_iff {connectionId : String} {now : ℚ} {acts : List SessionAction}
    {σ : SessionState} (run : Run m.sessionStep (m.enter connectionId now) acts σ) :
    (EachStep m.sessionStep (m.enter connectionId now) (fun _ σ a => m.IdlesInExit σ a) acts ↔
      EachStep m.sessionStep (m.enter connectionId now)
        (fun _ σ a => σ.handler.isExiting = true → a ≠ .heartbeat .sendReturned) acts) ∧
    (Throughout m.sessionStep (m.enter connectionId now) (fun _ σ => σ.StopsLoop) acts ↔
      EachStep m.sessionStep (m.enter connectionId now)
        (fun _ σ a => σ.handler.isExiting = true → a ≠ .heartbeat .sendReturned) acts) := by
  have hreturns := stopsLoop_iff_of_run run
  exact ⟨(stopsLoop_iff_idles_of_run run).symm.trans hreturns, hreturns⟩

/-- When the body ends and no send returns after that: no further ping is sent; the context is
left with the body's own outcome, however often the handler is cancelled meanwhile; it can
be left at once at any time; and if no send was in flight, no time passes until it is left. -/
theorem exit_is_quiet {σ entered τ : SessionState} {outcome : BodyOutcome}
    (hleave : m.sessionStep σ (.leave outcome) = some entered) {acts : List SessionAction}
    (run : Run m.sessionStep entered acts τ) (hreturns : .heartbeat .sendReturned ∉ acts) :
    τ.heartbeat.tracker.pingCount = σ.heartbeat.tracker.pingCount ∧
    (τ.handler = .exiting outcome ∨ τ.handler = .left outcome) ∧
    (σ.heartbeat.phase.isSending = false → τ.handler = .exiting outcome →
      τ.heartbeat.now = σ.heartbeat.now) ∧
    ∃ last ω, Run m.sessionStep τ last ω ∧ ω.handler = .left outcome ∧
      ω.heartbeat.now = τ.heartbeat.now := by
  obtain ⟨_, rfl⟩ := sessionStep_leave hleave
  have hquiet : Quiet σ outcome τ := by
    induction run with
    | nil =>
        refine ⟨Or.inl rfl, ?_, rfl, ?_⟩
        · exact cancelLoop_stopsLoop { σ with handler := .exiting outcome } rfl
        · intro hnone
          exact ⟨hnone, fun _ => rfl⟩
    | snoc _ h ih =>
        simp only [List.mem_append, List.mem_singleton, not_or] at hreturns
        exact (ih hreturns.1).step h (Ne.symm hreturns.2)
  refine ⟨hquiet.pings, hquiet.handler.imp_right And.left, ?_, hquiet.exists_left⟩
  intro hnone
  exact (hquiet.atOnce hnone).2

/-- The body ends while a ping is being sent; the handler is cancelled in the exit. -/
def leaveSendingActs : List SessionAction :=
  [.heartbeat (.advance 30), .heartbeat .wake, .leave .returned, .heartbeat (.advance 3),
    .cancelHandler, .heartbeat .sendRaised, .awaited, .heartbeat (.advance 100)]

theorem exit_stops_loop_leave_sending :
    let m : HeartbeatManager := {}
    EachStep m.sessionStep (m.enter "c" 0) (fun _ σ a => m.IdlesInExit σ a) leaveSendingActs ∧
      Throughout m.sessionStep (m.enter "c" 0) (fun _ σ => σ.StopsLoop) leaveSendingActs := by
  intro m
  have run := run_get
    (show (exec m.sessionStep (m.enter "c" 0) leaveSendingActs).isSome from by decide +kernel)
  have hreturns : EachStep m.sessionStep (m.enter "c" 0)
      (fun _ σ a => σ.handler.isExiting = true → a ≠ .heartbeat .sendReturned)
      leaveSendingActs := by
    decide +kernel
  obtain ⟨hidles, hstops⟩ := exit_stops_loop_iff run
  exact ⟨hidles.mpr hreturns, hstops.mpr hreturns⟩

theorem exit_is_quiet_sleeping :
    let m : HeartbeatManager := {}
    let σ := (exec m.sessionStep (m.enter "c" 0) [.heartbeat (.advance 7)]).get (by decide +kernel)
    let entered := (m.sessionStep σ (.leave .raised)).get (by decide +kernel)
    let τ := (exec m.sessionStep entered [.cancelHandler]).get (by decide +kernel)
    τ.heartbeat.now = 7 ∧ τ.heartbeat.tracker.pingCount = 0 ∧
      ∃ last ω, Run m.sessionStep τ last ω ∧ ω.handler = .left .raised ∧
        ω.heartbeat.now = τ.heartbeat.now := by
  intro m σ entered τ
  have hleave : m.sessionStep σ (.leave .raised) = some entered :=
    (Option.some_get (by decide +kernel)).symm
  have run : Run m.sessionStep entered [.cancelHandler] τ := run_get _
  obtain ⟨hpings, _, hnow, hlast⟩ := exit_is_quiet hleave run (by decide)
  refine ⟨?_, hpings.trans (by decide +kernel), hlast⟩
  exact (hnow (by decide +kernel) (by decide +kernel)).trans (by decide +kernel)

/-- The context is left only behind a loop that has ended, and then nothing brings it back. -/
theorem step_left {σ τ : SessionState} {a : SessionAction}
    (hended : ∀ outcome, σ.handler = .left outcome → σ.heartbeat.phase = .ended)
    (h : m.sessionStep σ a = some τ) :
    (∀ outcome, τ.handler = .left outcome → τ.heartbeat.phase = .ended) ∧
      ∀ outcome, σ.handler = .left outcome → τ.handler = .left outcome ∧
        τ.heartbeat.tracker.pingCount = σ.heartbeat.tracker.pingCount := by
  cases a with
  | heartbeat b =>
      obtain ⟨_, next, hnext, rfl⟩ := sessionStep_heartbeat h
      constructor
      · intro outcome hleft
        exact (step_of_ended (hended outcome hleft) hnext).1
      · intro outcome hleft
        exact ⟨hleft, (step_of_ended (hended outcome hleft) hnext).2⟩
  | loopCancelled =>
      obtain rfl := sessionStep_loopCancelled h
      exact ⟨fun _ _ => rfl, fun _ hleft => ⟨hleft, rfl⟩⟩
  | leave outcome =>
      obtain ⟨hinside, rfl⟩ := sessionStep_leave h
      exact ⟨by simp [cancelLoop], by simp [hinside]⟩
  | cancelHandler =>
      obtain ⟨_, rfl⟩ := sessionStep_cancelHandler h
      exact ⟨hended, fun _ hleft => ⟨hleft, rfl⟩⟩
  | awaited =>
      obtain ⟨outcome, hexiting, hphase, rfl⟩ := sessionStep_awaited h
      exact ⟨fun _ _ => hphase, by simp [hexiting]⟩

/-- In every run, once the context has been left its loop has ended and no further ping is
sent, even if sends had returned during its exit. -/
theorem left_is_final {connectionId : String} {now : ℚ} {acts : List SessionAction}
    {σ : SessionState} (run : Run m.sessionStep (m.enter connectionId now) acts σ)
    {outcome : BodyOutcome} (hleft : σ.handler = .left outcome) {more : List SessionAction}
    {τ : SessionState} (after : Run m.sessionStep σ more τ) :
    τ.handler = .left outcome ∧ τ.heartbeat.phase = .ended ∧
      τ.heartbeat.tracker.pingCount = σ.heartbeat.tracker.pingCount := by
  have hbefore : ∀ other, σ.handler = .left other → σ.heartbeat.phase = .ended :=
    run.invariant
      (I := fun _ σ => ∀ other, σ.handler = .left other → σ.heartbeat.phase = .ended)
      (by simp [enter]) fun _ _ _ _ hended h => (step_left hended h).1
  have hafter : (∀ other, τ.handler = .left other → τ.heartbeat.phase = .ended) ∧
      τ.handler = .left outcome ∧
        τ.heartbeat.tracker.pingCount = σ.heartbeat.tracker.pingCount := by
    induction after with
    | nil => exact ⟨hbefore, hleft, rfl⟩
    | snoc _ h ih =>
        obtain ⟨hended, hstill, hpings⟩ := ih
        obtain ⟨hnext, hsame⟩ := step_left hended h
        obtain ⟨hleft', hpings'⟩ := hsame outcome hstill
        exact ⟨hnext, hleft', hpings'.trans hpings⟩
  exact ⟨hafter.2.1, hafter.1 outcome hafter.2.1, hafter.2.2⟩

theorem left_is_final_leave_sending :
    let m : HeartbeatManager := {}
    let σ := (exec m.sessionStep (m.enter "c" 0) (leaveSendingActs.take 7)).get (by decide +kernel)
    let τ := (exec m.sessionStep σ (leaveSendingActs.drop 7)).get (by decide +kernel)
    τ.heartbeat.now = 133 ∧ τ.heartbeat.phase = .ended ∧ τ.heartbeat.tracker.pingCount = 1 := by
  intro m σ τ
  have run : Run m.sessionStep (m.enter "c" 0) (leaveSendingActs.take 7) σ := run_get _
  have after : Run m.sessionStep σ (leaveSendingActs.drop 7) τ := run_get _
  have hleft : σ.handler = .left .returned := by decide +kernel
  obtain ⟨_, hended, hpings⟩ := left_is_final run hleft after
  exact ⟨by decide +kernel, hended, hpings.trans (by decide +kernel)⟩

end HeartbeatManager

end WebSocketPatterns.FaultTolerance
