import WebSocketPatterns.FaultTolerance.HeartbeatSession
import Mathlib.Algebra.BigOperators.Group.List.Basic
import Mathlib.Tactic.Linarith
import Mathlib.Tactic.Ring

/-!
# When pings are sent

The loop sleeps twice in an iteration, and between the two sleeps it waits for
its send. The first ping is therefore sent after one interval, each further one
after one window, and all that has been spent in sends puts the schedule off; no
pong, missed or not, changes that, and a cancel of the loop only ends it.
-/

namespace WebSocketPatterns.FaultTolerance

open Transition

/-- The time that passes with an action while the loop is in `send_fn`. -/
def SessionState.inSend (σ : SessionState) : SessionAction → ℚ
  | .heartbeat a => σ.heartbeat.inSend a
  | _ => 0

namespace HeartbeatManager

variable (m : HeartbeatManager)

/-- The time spent in `send_fn`, however the sends ended and whether they have. -/
def sendTime (start : SessionState) (acts : List SessionAction) : ℚ :=
  ((trace m.sessionStep start acts).map fun visit => visit.1.inSend visit.2).sum

theorem sendTime_snoc {m : HeartbeatManager} {start σ : SessionState}
    {acts : List SessionAction} (run : Run m.sessionStep start acts σ) (a : SessionAction) :
    m.sendTime start (acts ++ [a]) = m.sendTime start acts + σ.inSend a := by
  simp only [sendTime, run.trace_snoc, List.map_append, List.sum_append, List.map_singleton,
    List.sum_singleton]

/-- The end of as many whole windows as pings were sent. -/
def windowsFrom (origin : ℚ) (σ : HeartbeatState) : ℚ :=
  origin + σ.tracker.pingCount * m.window

/-- Where the loop stands on a schedule that begins at the origin. -/
structure OnSchedule (origin : ℚ) (σ : HeartbeatState) : Prop where
  sleeping : ∀ deadline, σ.phase = .sleeping deadline →
    deadline = m.windowsFrom origin σ + m.interval ∧ m.windowsFrom origin σ ≤ σ.now ∧
      σ.now ≤ deadline
  sending : ∀ message, σ.phase = .sending message →
    σ.now + m.timeout = m.windowsFrom origin σ
  waiting : ∀ deadline, σ.phase = .waiting deadline →
    deadline = m.windowsFrom origin σ ∧ σ.now ≤ deadline ∧ deadline ≤ σ.now + m.timeout
  ended : σ.phase = .ended → m.windowsFrom origin σ ≤ σ.now + m.timeout

section Steps

variable {m} {origin : ℚ} {σ τ : HeartbeatState}

theorem start_onSchedule (hI : 0 ≤ m.interval) (connectionId : String) (now : ℚ) :
    m.OnSchedule now (m.start connectionId now) where
  sleeping := by
    intro deadline hp
    obtain rfl : now + m.interval = deadline := by
      simpa [start, nextIteration] using hp
    simpa [windowsFrom, start] using hI
  sending := by simp [start, nextIteration]
  waiting := by simp [start, nextIteration]
  ended := by simp [start, nextIteration]

/-- Time that passes in a send puts off the schedule; time that passes in a sleep does not. -/
theorem OnSchedule.advance (h : m.OnSchedule origin σ) {duration : ℚ} (hpos : 0 ≤ duration)
    (hdeadline : ∀ deadline ∈ σ.phase.deadline?, σ.now + duration ≤ deadline) :
    m.OnSchedule (origin + σ.inSend (.advance duration))
      { σ with now := σ.now + duration } := by
  cases hp : σ.phase with
  | sending message =>
      have hspent := HeartbeatState.inSend_of_isSending (by rw [hp]; rfl) (.advance duration)
      have hsent := h.sending message hp
      rw [hspent]
      refine ⟨by simp, ?_, by simp, by simp⟩
      intro _ _
      simp only [windowsFrom, HeartbeatAction.duration] at hsent ⊢
      linarith
  | sleeping deadline =>
      have hspent := HeartbeatState.inSend_of_not_isSending (by rw [hp]; rfl) (.advance duration)
      obtain ⟨hd, hbegun, _⟩ := h.sleeping deadline hp
      rw [hspent, add_zero]
      refine ⟨?_, by simp, by simp, by simp⟩
      intro deadline' hp'
      obtain rfl := LoopPhase.sleeping.inj hp'
      refine ⟨hd, ?_, hdeadline deadline (by rw [hp]; rfl)⟩
      exact hbegun.trans (le_add_of_nonneg_right hpos)
  | waiting deadline =>
      have hspent := HeartbeatState.inSend_of_not_isSending (by rw [hp]; rfl) (.advance duration)
      obtain ⟨hd, _, hsent⟩ := h.waiting deadline hp
      rw [hspent, add_zero]
      refine ⟨by simp, by simp, ?_, by simp⟩
      intro deadline' hp'
      obtain rfl := LoopPhase.waiting.inj hp'
      refine ⟨hd, hdeadline deadline (by rw [hp]; rfl), ?_⟩
      change deadline ≤ σ.now + duration + m.timeout
      linarith
  | ended =>
      have hspent := HeartbeatState.inSend_of_not_isSending (by rw [hp]; rfl) (.advance duration)
      have hended := h.ended hp
      rw [hspent, add_zero]
      refine ⟨by simp, by simp, by simp, ?_⟩
      intro _
      change m.windowsFrom origin σ ≤ σ.now + duration + m.timeout
      linarith

/-- A pong moves no deadline. -/
theorem OnSchedule.pong (h : m.OnSchedule origin σ) :
    m.OnSchedule origin { σ with tracker := σ.tracker.recordPong σ.now } :=
  ⟨h.sleeping, h.sending, h.waiting, h.ended⟩

/-- The next ping is sent when the sleep ends. -/
theorem OnSchedule.wake (h : m.OnSchedule origin σ) (hp : σ.phase = .sleeping σ.now) :
    m.OnSchedule origin { σ with
      tracker := { σ.tracker with pingCount := σ.tracker.pingCount + 1 }
      phase := .sending m.pingMessage } where
  sleeping := by simp
  sending := by
    intro _ _
    obtain ⟨hd, _, _⟩ := h.sleeping σ.now hp
    simp only [windowsFrom, window] at hd ⊢
    push_cast
    linarith
  waiting := by simp
  ended := by simp

theorem OnSchedule.sendReturned (hT : 0 ≤ m.timeout) (h : m.OnSchedule origin σ)
    {message : String} (hp : σ.phase = .sending message) :
    m.OnSchedule origin { σ with phase := .waiting (σ.now + m.timeout) } where
  sleeping := by simp
  sending := by simp
  waiting := by
    intro deadline hwaiting
    obtain rfl := LoopPhase.waiting.inj hwaiting
    exact ⟨h.sending message hp, le_add_of_nonneg_right hT, le_rfl⟩
  ended := by simp

/-- A loop that ends, by a failed send or a cancel, is not ahead of its schedule. -/
theorem OnSchedule.ends (hT : 0 ≤ m.timeout) (h : m.OnSchedule origin σ)
    {tracker : HeartbeatTracker} (hcount : tracker.pingCount = σ.tracker.pingCount) :
    m.OnSchedule origin { σ with tracker := tracker, phase := .ended } where
  sleeping := by simp
  sending := by simp
  waiting := by simp
  ended := by
    intro _
    have hsame : m.windowsFrom origin { σ with tracker := tracker, phase := .ended } =
        m.windowsFrom origin σ := by
      simp only [windowsFrom, hcount]
    rw [hsame]
    change m.windowsFrom origin σ ≤ σ.now + m.timeout
    cases hp : σ.phase with
    | sleeping deadline =>
        obtain ⟨_, hbegun, _⟩ := h.sleeping deadline hp
        linarith
    | sending message => exact (h.sending message hp).ge
    | waiting deadline =>
        obtain ⟨hd, _, hsent⟩ := h.waiting deadline hp
        linarith
    | ended => exact h.ended hp

/-- A check is made at the end of a window, and the next iteration begins there. -/
theorem OnSchedule.check (hI : 0 ≤ m.interval) (hT : 0 ≤ m.timeout) (h : m.OnSchedule origin σ)
    (hp : σ.phase = .waiting σ.now) :
    m.OnSchedule origin { σ with
      tracker := m.checkPong σ.now σ.tracker
      phase := m.nextIteration σ.now (m.checkPong σ.now σ.tracker) } := by
  obtain ⟨hd, _, _⟩ := h.waiting σ.now hp
  have hcount : (m.checkPong σ.now σ.tracker).pingCount = σ.tracker.pingCount := by
    unfold checkPong
    dsimp only
    split
    · split <;> rfl
    · rfl
  have hsame : m.windowsFrom origin { σ with
      tracker := m.checkPong σ.now σ.tracker
      phase := m.nextIteration σ.now (m.checkPong σ.now σ.tracker) } = σ.now := by
    calc
      _ = m.windowsFrom origin σ := by simp only [windowsFrom, hcount]
      _ = σ.now := hd.symm
  constructor
  case sleeping =>
    intro deadline hsleeping
    rw [hsame]
    simp only [nextIteration] at hsleeping
    split at hsleeping
    · obtain rfl := LoopPhase.sleeping.inj hsleeping
      refine ⟨rfl, le_rfl, ?_⟩
      change σ.now ≤ σ.now + m.interval
      linarith
    · simp at hsleeping
  case sending =>
    intro _ hsending
    simp only [nextIteration] at hsending
    split at hsending <;> simp at hsending
  case waiting =>
    intro _ hwaiting
    simp only [nextIteration] at hwaiting
    split at hwaiting <;> simp at hwaiting
  case ended =>
    intro _
    rw [hsame]
    change σ.now ≤ σ.now + m.timeout
    linarith

theorem OnSchedule.step (hI : 0 ≤ m.interval) (hT : 0 ≤ m.timeout) (h : m.OnSchedule origin σ)
    {a : HeartbeatAction} (hstep : m.step σ a = some τ) :
    m.OnSchedule (origin + σ.inSend a) τ := by
  have hinstant : a.duration = 0 → origin + σ.inSend a = origin := by
    intro hzero
    rw [HeartbeatState.inSend, hzero, ite_self, add_zero]
  cases a with
  | advance duration =>
      obtain ⟨hpos, hdeadline, rfl⟩ := step_advance hstep
      exact h.advance hpos hdeadline
  | pong =>
      obtain rfl := Option.some.inj hstep
      rw [hinstant rfl]
      exact h.pong
  | wake =>
      obtain ⟨hp, rfl⟩ := step_wake hstep
      rw [hinstant rfl]
      exact h.wake hp
  | sendReturned =>
      obtain ⟨message, hp, rfl⟩ := step_sendReturned hstep
      rw [hinstant rfl]
      exact h.sendReturned hT hp
  | sendRaised =>
      obtain ⟨_, _, rfl⟩ := step_sendRaised hstep
      rw [hinstant rfl]
      exact h.ends hT rfl
  | check =>
      obtain ⟨hp, rfl⟩ := step_check hstep
      rw [hinstant rfl]
      exact h.check hI hT hp

/-- What the schedule says about the number of pings. -/
theorem OnSchedule.between (hI : 0 ≤ m.interval) (hT : 0 ≤ m.timeout)
    (h : m.OnSchedule origin σ) :
    m.windowsFrom origin σ ≤ σ.now + m.timeout ∧
      (σ.phase ≠ .ended → σ.now ≤ m.windowsFrom origin σ + m.interval) := by
  cases hp : σ.phase with
  | sleeping deadline =>
      obtain ⟨hd, hbegun, hnow⟩ := h.sleeping deadline hp
      refine ⟨?_, fun _ => ?_⟩
      · linarith
      · linarith
  | sending message =>
      have hsent := h.sending message hp
      refine ⟨?_, fun _ => ?_⟩
      · linarith
      · linarith
  | waiting deadline =>
      obtain ⟨hd, hnow, hsent⟩ := h.waiting deadline hp
      refine ⟨?_, fun _ => ?_⟩
      · linarith
      · linarith
  | ended => exact ⟨h.ended hp, fun hne => absurd rfl hne⟩

end Steps

variable {m}

theorem onSchedule_of_run (hI : 0 ≤ m.interval) (hT : 0 ≤ m.timeout) {connectionId : String}
    {now : ℚ} {acts : List SessionAction} {σ : SessionState}
    (run : Run m.sessionStep (m.enter connectionId now) acts σ) :
    m.OnSchedule (now + m.sendTime (m.enter connectionId now) acts) σ.heartbeat := by
  induction run with
  | nil =>
      rw [sendTime, trace, List.map_nil, List.sum_nil, add_zero]
      exact start_onSchedule hI connectionId now
  | @snoc acts σ a τ run h ih =>
      rw [sendTime_snoc run, ← add_assoc]
      cases a with
      | heartbeat a =>
          obtain ⟨_, next, hnext, rfl⟩ := sessionStep_heartbeat h
          exact ih.step hI hT hnext
      | loopCancelled =>
          obtain rfl := sessionStep_loopCancelled h
          simp only [SessionState.inSend, add_zero]
          exact ih.ends hT rfl
      | leave outcome =>
          obtain ⟨_, rfl⟩ := sessionStep_leave h
          simp only [SessionState.inSend, add_zero]
          exact ih
      | cancelHandler =>
          obtain ⟨_, rfl⟩ := sessionStep_cancelHandler h
          simp only [SessionState.inSend, add_zero]
          exact ih
      | awaited =>
          obtain ⟨_, _, _, rfl⟩ := sessionStep_awaited h
          simp only [SessionState.inSend, add_zero]
          exact ih

/-- In every run of the context, whatever pongs arrive, however long the sends take and whenever
the loop is cancelled: the next ping is sent exactly one interval after as many whole windows
as pings were sent, plus the time these took; and at any time the number of pings sent is
that of the windows begun so far, up to one while the loop runs, and never more, where all
time spent in `send_fn` is taken off, be it in a send that returned, failed or was cancelled. -/
theorem pings_on_schedule (hI : 0 ≤ m.interval) (hT : 0 ≤ m.timeout) {connectionId : String}
    {now : ℚ} {acts : List SessionAction} {σ : SessionState}
    (run : Run m.sessionStep (m.enter connectionId now) acts σ) :
    let h := σ.heartbeat
    let spent := m.sendTime (m.enter connectionId now) acts
    (∀ τ, m.sessionStep σ (.heartbeat .wake) = some τ →
      h.now = now + h.tracker.pingCount * m.window + spent + m.interval) ∧
    h.tracker.pingCount * m.window + spent ≤ h.now - now + m.timeout ∧
    (h.phase ≠ .ended →
      h.now - now ≤ h.tracker.pingCount * m.window + m.interval + spent) := by
  intro h spent
  have hschedule := onSchedule_of_run hI hT run
  have hwindows : m.windowsFrom (now + spent) h =
      now + h.tracker.pingCount * m.window + spent := add_right_comm _ _ _
  obtain ⟨hmost, hleast⟩ := hschedule.between hI hT
  refine ⟨?_, ?_, ?_⟩
  · intro τ hwake
    obtain ⟨_, next, hnext, _⟩ := sessionStep_heartbeat hwake
    obtain ⟨hp, _⟩ := step_wake hnext
    rw [← hwindows]
    exact (hschedule.sleeping h.now hp).1
  · rw [hwindows] at hmost
    linarith
  · intro hrunning
    have hfew := hleast hrunning
    rw [hwindows] at hfew
    linarith

/-- The first send takes two seconds, and a pong comes after it. -/
def slowSendActs : List SessionAction :=
  [.heartbeat (.advance 30), .heartbeat .wake, .heartbeat (.advance 2), .heartbeat .sendReturned,
    .heartbeat (.advance 4), .heartbeat .pong, .heartbeat (.advance 6), .heartbeat .check,
    .heartbeat (.advance 30)]

/-- The second send is cancelled after three seconds, two of them in the exit. -/
def cancelledSendActs : List SessionAction :=
  slowSendActs ++ [.heartbeat .wake, .heartbeat (.advance 1), .leave .returned,
    .heartbeat (.advance 2), .loopCancelled]

/-- The second ping is due at 77, and five seconds in all are spent in the two sends. -/
theorem pings_on_schedule_cancelled_send :
    let m : HeartbeatManager := {}
    let σ := (exec m.sessionStep (m.enter "c" 5) slowSendActs).get (by decide +kernel)
    let τ := (exec m.sessionStep (m.enter "c" 5) cancelledSendActs).get (by decide +kernel)
    σ.heartbeat.now = 5 + 1 * m.window + 2 + m.interval ∧
      (2 : ℚ) * m.window + 5 ≤ τ.heartbeat.now - 5 + m.timeout := by
  intro m σ τ
  have run : Run m.sessionStep (m.enter "c" 5) slowSendActs σ := run_get _
  have run' : Run m.sessionStep (m.enter "c" 5) cancelledSendActs τ := run_get _
  have hwake := (pings_on_schedule (by decide +kernel) (by decide +kernel) run).1
  have hmost := (pings_on_schedule (by decide +kernel) (by decide +kernel) run').2.1
  have hnow := hwake _ (Option.some_get
    (x := m.sessionStep σ (.heartbeat .wake)) (by decide +kernel)).symm
  have hcount : σ.heartbeat.tracker.pingCount = 1 ∧
      m.sendTime (m.enter "c" 5) slowSendActs = 2 := by
    decide +kernel
  have hcount' : τ.heartbeat.tracker.pingCount = 2 ∧
      m.sendTime (m.enter "c" 5) cancelledSendActs = 5 := by
    decide +kernel
  rw [hcount.1, hcount.2] at hnow
  rw [hcount'.1, hcount'.2] at hmost
  exact ⟨by exact_mod_cast hnow, by exact_mod_cast hmost⟩

end HeartbeatManager

end WebSocketPatterns.FaultTolerance
