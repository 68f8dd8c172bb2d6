import WebSocketPatterns.FaultTolerance.SweepExact
import Mathlib.Tactic.Ring

/-!
# When sweeps are made

The loop sleeps for the sweep interval, then reports what is dead, one callback
after the other, and only then sleeps again. As for the heartbeat, time is exact
and a sleep ends at its deadline. A sweep is therefore put off by the time spent
in the callbacks before it, and so is the report of a connection that dies.
-/

namespace WebSocketPatterns.FaultTolerance

open Transition

/-- The detector and the deadline of its loop's present sleep; the last two fields record the
sweeps begun and the time spent in `on_dead`, and are read by no code. -/
structure SweepTimer where
  state : DetectorState
  deadline : ℚ
  sweeps : Nat := 0
  reportTime : ℚ := 0

/-- A call by another task than the sweep loop. -/
def DetectorAction.ofOthers : DetectorAction → Bool
  | .advance _ => false
  | .wake => false
  | .onDeadDone _ => false
  | _ => true

/-- No activity on an object, and no `track` under its id. -/
def DetectorAction.leavesAlone (ids : Nat → String) (health : Nat) : DetectorAction → Bool
  | .track other => ids other ≠ ids health
  | .recordSend active => active ≠ health
  | .recordReceive active => active ≠ health
  | _ => true

namespace SweepTimer

/-- How long `asyncio.sleep(sweep_interval_s)` takes; a negative delay is none. -/
def pause (sweepInterval : ℚ) : ℚ := max sweepInterval 0

theorem pause_nonneg (sweepInterval : ℚ) : 0 ≤ pause sweepInterval := le_max_right _ _

/-- The loop is started with nothing tracked. -/
def start (idleThreshold sweepInterval now : ℚ) (heap : Nat → ConnectionHealth) : SweepTimer where
  state := DetectorState.start idleThreshold now heap
  deadline := now + pause sweepInterval

/-- One action of the detector at its time. When the loop has nothing left to report it goes to
sleep, and only then is the deadline looked at. -/
def step (sweepInterval : ℚ) (σ : SweepTimer) (a : DetectorAction) : Option SweepTimer :=
  (σ.state.step a).bind fun s =>
    match a with
    | .advance duration =>
        match σ.state.phase with
        | .sleeping => if s.now ≤ σ.deadline then some { σ with state := s } else none
        | .reporting _ _ =>
            some { σ with state := s, reportTime := σ.reportTime + duration }
    | .wake =>
        if σ.state.now = σ.deadline then
          some { σ with
            state := s
            deadline := s.now + pause sweepInterval
            sweeps := σ.sweeps + 1 }
        else none
    | .onDeadDone _ => some { σ with state := s, deadline := s.now + pause sweepInterval }
    | _ => some { σ with state := s }

variable {sweepInterval : ℚ} {σ τ : SweepTimer} {a : DetectorAction}

/-- What an action does to the clock and the schedule. -/
inductive Stepped (sweepInterval : ℚ) (σ : SweepTimer) : DetectorAction → SweepTimer → Prop
  | slept (duration : ℚ) (sleeping : σ.state.phase = .sleeping) (forward : 0 ≤ duration)
      (within : σ.state.now + duration ≤ σ.deadline) :
      Stepped sweepInterval σ (.advance duration)
        { σ with state := { σ.state with now := σ.state.now + duration } }
  | reported (duration : ℚ) (current : Nat) (rest : List Nat)
      (reporting : σ.state.phase = .reporting current rest) (forward : 0 ≤ duration) :
      Stepped sweepInterval σ (.advance duration)
        { σ with
          state := { σ.state with now := σ.state.now + duration }
          reportTime := σ.reportTime + duration }
  | swept (sleeping : σ.state.phase = .sleeping) (due : σ.state.now = σ.deadline) :
      Stepped sweepInterval σ .wake
        { σ with
          state := { σ.state with
            phase := DetectorState.reportNext
              (σ.state.detector.findDead σ.state.heap σ.state.now) }
          deadline := σ.state.now + pause sweepInterval
          sweeps := σ.sweeps + 1 }
  | finished (raised : Bool) (current : Nat) (rest : List Nat)
      (reporting : σ.state.phase = .reporting current rest) :
      Stepped sweepInterval σ (.onDeadDone raised)
        { σ with
          state := { σ.state with
            detector := σ.state.detector.untrack (σ.state.idOf current)
            phase := DetectorState.reportNext rest }
          deadline := σ.state.now + pause sweepInterval }
  | called (a : DetectorAction) (s : DetectorState) (inner : σ.state.step a = some s)
      (others : a.ofOthers = true) (now : s.now = σ.state.now) (phase : s.phase = σ.state.phase) :
      Stepped sweepInterval σ a { σ with state := s }

theorem stepped (h : step sweepInterval σ a = some τ) : Stepped sweepInterval σ a τ := by
  obtain ⟨s, hs, h⟩ := Option.bind_eq_some_iff.mp h
  cases a with
  | advance duration =>
      obtain ⟨hforward, rfl⟩ := DetectorState.step_advance hs
      dsimp only at h
      split at h
      · rename_i hsleeping
        obtain ⟨hwithin, h⟩ := Option.ite_none_right_eq_some.mp h
        obtain rfl := Option.some.inj h
        exact .slept duration hsleeping hforward hwithin
      · rename_i current rest hreporting
        obtain rfl := Option.some.inj h
        exact .reported duration current rest hreporting hforward
  | wake =>
      have hsleeping := DetectorState.sleeping_of_wake hs
      obtain rfl := DetectorState.step_wake hs
      obtain ⟨hdue, h⟩ := Option.ite_none_right_eq_some.mp h
      obtain rfl := Option.some.inj h
      exact .swept hsleeping hdue
  | onDeadDone raised =>
      obtain ⟨current, rest, hreporting, rfl⟩ := DetectorState.step_onDeadDone hs
      obtain rfl := Option.some.inj h
      exact .finished raised current rest hreporting
  | track health =>
      obtain rfl := Option.some.inj h
      obtain rfl := Option.some.inj hs
      exact .called _ _ rfl rfl rfl rfl
  | untrack connectionId =>
      obtain rfl := Option.some.inj h
      obtain rfl := Option.some.inj hs
      exact .called _ _ rfl rfl rfl rfl
  | recordSend health =>
      obtain rfl := Option.some.inj h
      obtain rfl := Option.some.inj hs
      exact .called _ _ rfl rfl rfl rfl
  | recordReceive health =>
      obtain rfl := Option.some.inj h
      obtain rfl := Option.some.inj hs
      exact .called _ _ rfl rfl rfl rfl
  | recordError health =>
      obtain rfl := Option.some.inj h
      obtain rfl := Option.some.inj hs
      exact .called _ _ rfl rfl rfl rfl

/-- The timed loop makes only steps that the untimed one can make. -/
theorem step_state (h : step sweepInterval σ a = some τ) : σ.state.step a = some τ.state := by
  obtain ⟨s, hs, h⟩ := Option.bind_eq_some_iff.mp h
  rw [hs]
  cases a <;> dsimp only at h
  case advance =>
    split at h
    · obtain ⟨_, h⟩ := Option.ite_none_right_eq_some.mp h
      exact congrArg (some ∘ state) (Option.some.inj h)
    · exact congrArg (some ∘ state) (Option.some.inj h)
  case wake =>
    obtain ⟨_, h⟩ := Option.ite_none_right_eq_some.mp h
    exact congrArg (some ∘ state) (Option.some.inj h)
  all_goals exact congrArg (some ∘ state) (Option.some.inj h)

theorem run_state {acts : List DetectorAction} (run : Run (step sweepInterval) σ acts τ) :
    Run DetectorState.step σ.state acts τ.state := by
  have hmap := run.map (f := state) (g := id) fun _ _ _ h => step_state h
  rwa [List.map_id] at hmap

/-! ## The schedule -/

/-- Where the loop stands on its schedule. -/
structure OnSchedule (sweepInterval began : ℚ) (σ : SweepTimer) : Prop where
  sleeping : σ.state.phase = .sleeping →
    began + σ.sweeps * pause sweepInterval + σ.reportTime ≤ σ.state.now ∧
      σ.state.now ≤ σ.deadline ∧
      σ.deadline = began + (σ.sweeps + 1) * pause sweepInterval + σ.reportTime
  reporting : ∀ current rest, σ.state.phase = .reporting current rest →
    σ.state.now = began + σ.sweeps * pause sweepInterval + σ.reportTime

/-- The loop has just begun a sweep or finished a report. -/
theorem onSchedule_of_deadline {began : ℚ}
    (hdeadline : σ.deadline = σ.state.now + pause sweepInterval)
    (hnow : σ.state.now = began + σ.sweeps * pause sweepInterval + σ.reportTime) :
    σ.OnSchedule sweepInterval began where
  sleeping := by
    intro _
    refine ⟨hnow.ge, ?_, ?_⟩
    · rw [hdeadline]
      exact le_add_of_nonneg_right (pause_nonneg sweepInterval)
    · rw [hdeadline, hnow]
      ring
  reporting := fun _ _ _ => hnow

theorem start_onSchedule (idleThreshold sweepInterval now : ℚ) (heap : Nat → ConnectionHealth) :
    (start idleThreshold sweepInterval now heap).OnSchedule sweepInterval now :=
  onSchedule_of_deadline rfl (by simp [start, DetectorState.start])

theorem OnSchedule.step {began : ℚ} (h : σ.OnSchedule sweepInterval began)
    (hstep : step sweepInterval σ a = some τ) : τ.OnSchedule sweepInterval began := by
  cases stepped hstep with
  | slept duration sleeping forward within =>
      obtain ⟨hbegun, _, hdeadline⟩ := h.sleeping sleeping
      constructor
      case sleeping =>
        intro _
        exact ⟨hbegun.trans (le_add_of_nonneg_right forward), within, hdeadline⟩
      case reporting =>
        intro current rest hreporting
        simp [sleeping] at hreporting
  | reported duration current rest reporting forward =>
      constructor
      case sleeping =>
        intro hsleeping
        simp [reporting] at hsleeping
      case reporting =>
        intro _ _ _
        dsimp only
        rw [h.reporting current rest reporting, add_assoc]
  | swept sleeping due =>
      obtain ⟨_, _, hdeadline⟩ := h.sleeping sleeping
      apply onSchedule_of_deadline rfl
      dsimp only
      rw [due, hdeadline, Nat.cast_add, Nat.cast_one]
  | finished raised current rest reporting =>
      exact onSchedule_of_deadline rfl (h.reporting current rest reporting)
  | called a s _ _ now phase =>
      constructor
      case sleeping =>
        intro hsleeping
        dsimp only at hsleeping ⊢
        rw [now]
        exact h.sleeping (phase.symm.trans hsleeping)
      case reporting =>
        intro current rest hreporting
        dsimp only at hreporting ⊢
        rw [now]
        exact h.reporting current rest (phase.symm.trans hreporting)

theorem onSchedule_of_run {idleThreshold began : ℚ} {heap : Nat → ConnectionHealth}
    {acts : List DetectorAction}
    (run : Run (step sweepInterval) (start idleThreshold sweepInterval began heap) acts σ) :
    σ.OnSchedule sweepInterval began :=
  run.invariant (I := fun _ σ => σ.OnSchedule sweepInterval began)
    (start_onSchedule idleThreshold sweepInterval began heap) fun _ _ _ _ h hstep => h.step hstep

/-- In every run, whatever the other tasks do and however long the callbacks take: a sweep begins
exactly when the loop has slept once more than sweeps were made, plus the time spent in
callbacks; and at any time the number of sweeps is that of the whole intervals spent asleep. -/
theorem sweeps_on_schedule {idleThreshold began : ℚ} {heap : Nat → ConnectionHealth}
    {acts : List DetectorAction}
    (run : Run (step sweepInterval) (start idleThreshold sweepInterval began heap) acts σ) :
    (∀ τ, step sweepInterval σ .wake = some τ →
      σ.state.now = began + (σ.sweeps + 1) * pause sweepInterval + σ.reportTime) ∧
    began + σ.sweeps * pause sweepInterval + σ.reportTime ≤ σ.state.now ∧
    σ.state.now ≤ began + (σ.sweeps + 1) * pause sweepInterval + σ.reportTime := by
  have hschedule := onSchedule_of_run run
  refine ⟨?_, ?_⟩
  · intro τ hwake
    cases stepped hwake with
    | swept sleeping due => exact due.trans (hschedule.sleeping sleeping).2.2
    | called a s _ others _ _ => simp [DetectorAction.ofOthers] at others
  · cases hphase : σ.state.phase with
    | sleeping =>
        obtain ⟨hbegun, hwithin, hdeadline⟩ := hschedule.sleeping hphase
        exact ⟨hbegun, hwithin.trans_eq hdeadline⟩
    | reporting current rest =>
        have hnow := hschedule.reporting current rest hphase
        refine ⟨hnow.ge, ?_⟩
        have hpause := pause_nonneg sweepInterval
        linarith

/-! ## The report of a connection that has died -/

section Detection

variable {ids : Nat → String} {health : Nat}

theorem idleThreshold_of_step {s t : DetectorState} (h : s.step a = some t) :
    t.detector.idleThreshold = s.detector.idleThreshold := by
  cases a with
  | advance duration =>
      obtain ⟨_, rfl⟩ := DetectorState.step_advance h
      rfl
  | wake =>
      obtain rfl := DetectorState.step_wake h
      rfl
  | onDeadDone raised =>
      obtain ⟨_, _, _, rfl⟩ := DetectorState.step_onDeadDone h
      rfl
  | _ =>
      obtain rfl := Option.some.inj h
      rfl

/-- Only an activity on the object itself is recorded on it. -/
theorem lastActivityAt_of_step {s t : DetectorState} (h : s.step a = some t)
    (halone : a.leavesAlone ids health = true) :
    (t.heap health).lastActivityAt = (s.heap health).lastActivityAt := by
  cases a with
  | advance duration =>
      obtain ⟨_, rfl⟩ := DetectorState.step_advance h
      rfl
  | wake =>
      obtain rfl := DetectorState.step_wake h
      rfl
  | onDeadDone raised =>
      obtain ⟨_, _, _, rfl⟩ := DetectorState.step_onDeadDone h
      rfl
  | track other =>
      obtain rfl := Option.some.inj h
      rfl
  | untrack connectionId =>
      obtain rfl := Option.some.inj h
      rfl
  | recordSend active =>
      obtain rfl := Option.some.inj h
      have hne : active ≠ health := by simpa [DetectorAction.leavesAlone] using halone
      simp [DetectorState.modify, Ne.symm hne]
  | recordReceive active =>
      obtain rfl := Option.some.inj h
      have hne : active ≠ health := by simpa [DetectorAction.leavesAlone] using halone
      simp [DetectorState.modify, Ne.symm hne]
  | recordError active =>
      obtain rfl := Option.some.inj h
      by_cases he : active = health
      · subst he
        simp [DetectorState.modify, ConnectionHealth.recordError]
      · simp [DetectorState.modify, Ne.symm he]

/-- What is tracked without being tracked in this step was tracked before it. -/
theorem tracked_of_step {s t : DetectorState} (h : s.step a = some t)
    (hnamed : ∀ other, s.idOf other = ids other) (halone : a.leavesAlone ids health = true)
    (htracked : t.detector.tracked (ids health) = some health) :
    s.detector.tracked (ids health) = some health := by
  cases a with
  | advance duration =>
      obtain ⟨_, rfl⟩ := DetectorState.step_advance h
      exact htracked
  | wake =>
      obtain rfl := DetectorState.step_wake h
      exact htracked
  | onDeadDone raised =>
      obtain ⟨_, _, _, rfl⟩ := DetectorState.step_onDeadDone h
      rw [DeadClientDetector.tracked_untrack] at htracked
      exact (Option.ite_none_left_eq_some.mp htracked).2
  | track other =>
      obtain rfl := Option.some.inj h
      have hne : ids other ≠ ids health := by simpa [DetectorAction.leavesAlone] using halone
      rwa [DeadClientDetector.tracked_track, hnamed, if_neg (Ne.symm hne)] at htracked
  | untrack connectionId =>
      obtain rfl := Option.some.inj h
      rw [DeadClientDetector.tracked_untrack] at htracked
      exact (Option.ite_none_left_eq_some.mp htracked).2
  | _ =>
      obtain rfl := Option.some.inj h
      exact htracked

/-- The time at which an object, if it is left alone, has been idle for the threshold. -/
def dueAt (σ : SweepTimer) (health : Nat) : ℚ :=
  max ((σ.state.heap health).lastActivityAt + σ.state.detector.idleThreshold) σ.state.now

/-- The same, put off by the time spent in callbacks since. -/
def dueBy (σ τ : SweepTimer) (health : Nat) : ℚ :=
  σ.dueAt health + (τ.reportTime - σ.reportTime)

/-- How a run goes on in which an object is left alone and has not been reported: a sweep that
passed it over began before it was due, and the next one is an interval away. -/
structure InTime (sweepInterval : ℚ) (health : Nat) (σ τ : SweepTimer) : Prop where
  activity : (τ.state.heap health).lastActivityAt = (σ.state.heap health).lastActivityAt
  threshold : τ.state.detector.idleThreshold = σ.state.detector.idleThreshold
  reportTime : σ.reportTime ≤ τ.reportTime
  current : τ.state.phase.current? ≠ some health
  sleeping : τ.state.phase = .sleeping → τ.deadline ≤ σ.dueBy τ health + pause sweepInterval
  pending : health ∈ DetectorState.pending τ.state.phase →
    τ.state.now ≤ σ.dueBy τ health + pause sweepInterval
  reporting : ∀ current rest, τ.state.phase = .reporting current rest → health ∉ rest →
    τ.state.now ≤ σ.dueBy τ health

theorem inTime_self {began : ℚ} (hschedule : σ.OnSchedule sweepInterval began)
    (hcurrent : σ.state.phase.current? ≠ some health) : InTime sweepInterval health σ σ := by
  have hdue : σ.state.now ≤ σ.dueBy σ health := by
    rw [dueBy, sub_self, add_zero]
    exact le_max_right _ _
  refine ⟨rfl, rfl, le_rfl, hcurrent, ?_, ?_, fun _ _ _ _ => hdue⟩
  · intro hsleeping
    obtain ⟨hbegun, _, hdeadline⟩ := hschedule.sleeping hsleeping
    rw [hdeadline]
    linarith
  · intro _
    exact hdue.trans (le_add_of_nonneg_right (pause_nonneg sweepInterval))

variable {υ : SweepTimer}

/-- A sweep that does not list a tracked object begins before the object is due. -/
theorem InTime.now_le_of_not_mem (inTime : InTime sweepInterval health σ τ)
    (htracked : τ.state.detector.tracked (ids health) = some health)
    (hlisted : health ∉ τ.state.detector.findDead τ.state.heap τ.state.now) :
    τ.state.now ≤ σ.dueBy τ health := by
  have hvalue : health ∈ τ.state.detector.connections.values :=
    (Dict.mem_values_iff _ _).mpr ⟨ids health, htracked⟩
  have hidle : ¬ τ.state.detector.idleThreshold <
      (τ.state.heap health).idleSeconds τ.state.now := by
    intro hlt
    exact hlisted (List.mem_filter.mpr ⟨hvalue, decide_eq_true hlt⟩)
  rw [not_lt, inTime.threshold, ConnectionHealth.idleSeconds, inTime.activity] at hidle
  have hmax : (σ.state.heap health).lastActivityAt + σ.state.detector.idleThreshold ≤
      σ.dueAt health := le_max_left _ _
  have hreport := inTime.reportTime
  rw [dueBy]
  linarith

theorem InTime.step (inTime : InTime sweepInterval health σ τ)
    (hstep : SweepTimer.step sweepInterval τ a = some υ)
    (halone : a.leavesAlone ids health = true)
    (htracked : τ.state.detector.tracked (ids health) = some health)
    (hcalled : τ.state.begins a ≠ some health) : InTime sweepInterval health σ υ := by
  have hinner := step_state hstep
  have hactivity := (lastActivityAt_of_step hinner halone).trans inTime.activity
  have hthreshold := (idleThreshold_of_step hinner).trans inTime.threshold
  cases stepped hstep with
  | slept duration hsleeping forward within =>
      refine ⟨hactivity, hthreshold, inTime.reportTime, inTime.current, inTime.sleeping, ?_, ?_⟩
      · simp [hsleeping, DetectorState.pending]
      · simp [hsleeping]
  | reported duration current rest reporting forward =>
      have hdue : ∀ υ : SweepTimer, υ.reportTime = τ.reportTime + duration →
          σ.dueBy υ health = σ.dueBy τ health + duration := by
        intro υ hυ
        rw [dueBy, dueBy, hυ]
        ring
      refine ⟨hactivity, hthreshold, inTime.reportTime.trans (le_add_of_nonneg_right forward),
        inTime.current, ?_, ?_, ?_⟩
      · simp [reporting]
      · intro hpending
        have hnow := inTime.pending hpending
        rw [hdue _ rfl]
        dsimp only
        linarith
      · intro current' rest' hreporting hrest
        have hnow := inTime.reporting current' rest' hreporting hrest
        rw [hdue _ rfl]
        dsimp only
        linarith
  | swept hsleeping due =>
      rw [DetectorState.begins_wake hinner] at hcalled
      have hpassed := inTime.now_le_of_not_mem htracked
      refine ⟨hactivity, hthreshold, inTime.reportTime, hcalled, ?_, ?_, ?_⟩
      · intro hphase
        have hnone : τ.state.detector.findDead τ.state.heap τ.state.now = [] := by
          rw [← DetectorState.pending_reportNext (τ.state.detector.findDead _ _)]
          exact congrArg DetectorState.pending hphase
        exact add_le_add_left (hpassed (by simp [hnone])) _
      · intro _
        exact due.le.trans (inTime.sleeping hsleeping)
      · intro current rest hphase hrest
        apply hpassed
        have hdead : τ.state.detector.findDead τ.state.heap τ.state.now = current :: rest := by
          rw [← DetectorState.pending_reportNext (τ.state.detector.findDead _ _)]
          exact congrArg DetectorState.pending hphase
        rw [hdead, List.mem_cons, not_or]
        refine ⟨?_, hrest⟩
        rintro rfl
        exact hcalled (congrArg SweepPhase.current? hphase)
  | finished raised current rest reporting =>
      rw [DetectorState.begins_onDeadDone hinner] at hcalled
      refine ⟨hactivity, hthreshold, inTime.reportTime, hcalled, ?_, ?_, ?_⟩
      · intro hphase
        have hnone : rest = [] := by
          rw [← DetectorState.pending_reportNext rest]
          exact congrArg DetectorState.pending hphase
        exact add_le_add_left (inTime.reporting current rest reporting (by simp [hnone])) _
      · intro hpending
        apply inTime.pending
        rw [reporting]
        exact List.mem_cons_of_mem _ (DetectorState.pending_reportNext rest ▸ hpending)
      · intro next others hphase hothers
        apply inTime.reporting current rest reporting
        have hrest : rest = next :: others := by
          rw [← DetectorState.pending_reportNext rest]
          exact congrArg DetectorState.pending hphase
        rw [hrest, List.mem_cons, not_or]
        refine ⟨?_, hothers⟩
        rintro rfl
        exact hcalled (congrArg SweepPhase.current? hphase)
  | called a s _ _ now phase =>
      refine ⟨hactivity, hthreshold, inTime.reportTime, ?_, ?_, ?_, ?_⟩
      · rw [phase]
        exact inTime.current
      · rw [phase]
        exact inTime.sleeping
      · rw [phase, now]
        exact inTime.pending
      · rw [phase, now]
        exact inTime.reporting

end Detection

/-- Two clients, both last active at the start. -/
def twoClients (health : Nat) : ConnectionHealth where
  connectionId := if health = 0 then "a" else "b"
  lastActivityAt := 0

/-- The first sweep finds nobody idle, the second one comes just when both clients have been
idle for the threshold, and the third one reports the first client for seven seconds. -/
def slowReportActs : List DetectorAction :=
  [.advance 30, .wake, .recordError 1, .advance 30, .wake, .advance 30, .wake, .advance 7]

theorem sweeps_on_schedule_slow_report :
    let σ := (exec (step 30) (start 60 30 0 twoClients)
      (.track 0 :: .track 1 :: slowReportActs)).get (by decide +kernel)
    0 + 3 * pause 30 + 7 ≤ σ.state.now ∧ σ.sweeps = 3 := by
  intro σ
  have run : Run (step 30) (start 60 30 0 twoClients)
      (.track 0 :: .track 1 :: slowReportActs) σ := run_get _
  have hrecord : σ.sweeps = 3 ∧ σ.reportTime = 7 := by decide +kernel
  have hbegun := (sweeps_on_schedule run).2.1
  rw [hrecord.1, hrecord.2] at hbegun
  exact ⟨by exact_mod_cast hbegun, hrecord.1⟩

end SweepTimer

end WebSocketPatterns.FaultTolerance
