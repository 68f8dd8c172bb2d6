import WebSocketPatterns.FaultTolerance.Heartbeat
import Mathlib.Tactic.Linarith
import Mathlib.Tactic.Ring

/-!
# When a client is declared dead

A client is silent for the time that has passed since its last pong, or since
the start. The counter of missed pongs is tied to the silence through the latest
time at which the present iteration can have begun: `k` misses mean more than
`k` windows of silence by then, and, as long as no time passed in a send, at
most `k + 1`.
-/

namespace WebSocketPatterns.FaultTolerance.HeartbeatManager

open Transition

/-! ## Silence -/

/-- The time that has passed since the last pong, or since the start if there was none. -/
def silence (acts : List HeartbeatAction) : ℚ :=
  acts.foldl (fun elapsed a => if a = .pong then 0 else elapsed + a.duration) 0

theorem silence_snoc (acts : List HeartbeatAction) (a : HeartbeatAction) :
    silence (acts ++ [a]) = if a = .pong then 0 else silence acts + a.duration := by
  rw [silence, List.foldl_append]
  rfl

variable (m : HeartbeatManager)

/-- The silence after which a client is dead: the tolerated number of windows, at least one. -/
def deathBound : ℚ := ((max 1 m.maxMissed : ℤ) : ℚ) * m.window

/-- No time passes in `send_fn`. -/
def InstantSends (start : HeartbeatState) (acts : List HeartbeatAction) : Prop :=
  EachStep m.step start (fun _ σ a => σ.inSend a = 0) acts

section Silence

variable {m} {σ τ : HeartbeatState}

/-- The age of the last pong grows with the time that passes, and a pong resets it. -/
theorem step_secondsSincePong {a : HeartbeatAction} (h : m.step σ a = some τ) :
    τ.tracker.secondsSincePong τ.now =
      if a = .pong then 0 else σ.tracker.secondsSincePong σ.now + a.duration := by
  cases a with
  | advance duration =>
      obtain ⟨_, _, rfl⟩ := step_advance h
      exact add_sub_right_comm _ _ _
  | pong =>
      obtain rfl := Option.some.inj h
      exact sub_self _
  | wake =>
      obtain ⟨_, rfl⟩ := step_wake h
      exact (add_zero _).symm
  | sendReturned =>
      obtain ⟨_, _, rfl⟩ := step_sendReturned h
      exact (add_zero _).symm
  | sendRaised =>
      obtain ⟨_, _, rfl⟩ := step_sendRaised h
      exact (add_zero _).symm
  | check =>
      obtain ⟨_, rfl⟩ := step_check h
      simp [HeartbeatTracker.secondsSincePong, HeartbeatAction.duration]

/-- What the tracker measures is the silence of the run. -/
theorem secondsSincePong_of_run {connectionId : String} {now : ℚ} {acts : List HeartbeatAction}
    (run : Run m.step (m.start connectionId now) acts σ) :
    σ.tracker.secondsSincePong σ.now = silence acts := by
  induction run with
  | nil => exact sub_self now
  | snoc run h ih => rw [silence_snoc, step_secondsSincePong h, ih]

end Silence

/-! ## Misses and silence -/

/-- The latest time at which the present iteration can have begun. -/
def latestBegin (σ : HeartbeatState) : Option ℚ :=
  match σ.phase with
  | .sleeping deadline => some (deadline - m.interval)
  | .sending _ => some (σ.now - m.interval)
  | .waiting deadline => some (deadline - m.window)
  | .ended => none

/-- What holds between any two actions; the last item if the sends so far were instantaneous. -/
structure Inv (instant : Prop) (σ : HeartbeatState) : Prop where
  alive : σ.phase ≠ .ended → σ.tracker.alive = true
  begun : ∀ b ∈ m.latestBegin σ, b ≤ σ.now
  silent : ∀ b ∈ m.latestBegin σ, 0 < σ.tracker.missedPongs →
    σ.tracker.lastPongAt + σ.tracker.missedPongs * m.window < b
  recent : instant → ∀ b ∈ m.latestBegin σ,
    b - σ.tracker.lastPongAt ≤ (σ.tracker.missedPongs + 1) * m.window

section Steps

variable {m} {instant : Prop} {σ τ : HeartbeatState}

theorem latestBegin_waiting {deadline : ℚ} (hp : σ.phase = .waiting deadline) :
    m.latestBegin σ = some (deadline - m.window) := by
  rw [latestBegin, hp]

/-- Time spent in a send puts off the latest begin. -/
theorem latestBegin_advance (duration : ℚ) :
    m.latestBegin { σ with now := σ.now + duration } =
      (m.latestBegin σ).map fun b => b + σ.inSend (.advance duration) := by
  cases hp : σ.phase with
  | sending message =>
      rw [HeartbeatState.inSend_of_isSending (by rw [hp]; rfl)]
      simp only [latestBegin, hp, HeartbeatAction.duration, Option.map_some]
      congr 1
      ring
  | _ =>
      rw [HeartbeatState.inSend_of_not_isSending (by rw [hp]; rfl)]
      simp [latestBegin, hp]

section Timeless

variable (inv : m.Inv instant σ)
include inv

theorem Inv.advance {duration : ℚ} (h : 0 ≤ duration) :
    m.Inv (instant ∧ σ.inSend (.advance duration) = 0) { σ with now := σ.now + duration } := by
  obtain ⟨hnonneg, hle⟩ := σ.inSend_between h
  constructor
  case alive => exact inv.alive
  case begun =>
    intro b' hb
    rw [latestBegin_advance] at hb
    obtain ⟨b, hold, rfl⟩ := Option.map_eq_some_iff.mp hb
    exact add_le_add (inv.begun b hold) hle
  case silent =>
    intro b' hb hpos
    rw [latestBegin_advance] at hb
    obtain ⟨b, hold, rfl⟩ := Option.map_eq_some_iff.mp hb
    exact (inv.silent b hold hpos).trans_le (le_add_of_nonneg_right hnonneg)
  case recent =>
    rintro ⟨hinstant, hzero⟩ b' hb
    rw [latestBegin_advance, hzero] at hb
    obtain ⟨b, hold, rfl⟩ := Option.map_eq_some_iff.mp hb
    rw [add_zero]
    exact inv.recent hinstant b hold

/-- A step between two awaits of one iteration keeps when it can have begun. -/
theorem Inv.resume {tracker : HeartbeatTracker} {phase : LoopPhase} (hp : σ.phase ≠ .ended)
    (hsame : m.latestBegin { σ with tracker := tracker, phase := phase } = m.latestBegin σ)
    (halive : tracker.alive = σ.tracker.alive)
    (hpong : tracker.lastPongAt = σ.tracker.lastPongAt)
    (hmissed : tracker.missedPongs = σ.tracker.missedPongs) :
    m.Inv instant { σ with tracker := tracker, phase := phase } where
  alive := fun _ => halive.trans (inv.alive hp)
  begun := hsame ▸ inv.begun
  silent := by
    rw [hsame, hpong, hmissed]
    exact inv.silent
  recent := by
    rw [hsame, hpong, hmissed]
    exact inv.recent

theorem Inv.wake (hp : σ.phase = .sleeping σ.now) :
    m.Inv instant { σ with
      tracker := { σ.tracker with pingCount := σ.tracker.pingCount + 1 }
      phase := .sending m.pingMessage } := by
  refine inv.resume (by simp [hp]) ?_ rfl rfl rfl
  simp [latestBegin, hp]

/-- However long the send took, the iteration can have begun one interval before its end. -/
theorem Inv.sendReturned {message : String} (hp : σ.phase = .sending message) :
    m.Inv instant { σ with phase := .waiting (σ.now + m.timeout) } := by
  refine inv.resume (by simp [hp]) ?_ rfl rfl rfl
  simp only [latestBegin, hp, window]
  congr 1
  ring

/-- At a check the misses counted so far, and one more window, lie behind the last pong. -/
theorem Inv.silent_at_check (hp : σ.phase = .waiting σ.now)
    (hlate : m.window < σ.now - σ.tracker.lastPongAt) :
    (σ.tracker.missedPongs + 1) * m.window < σ.now - σ.tracker.lastPongAt := by
  rcases Nat.eq_zero_or_pos σ.tracker.missedPongs with hzero | hpos
  · rw [hzero]
    simpa using hlate
  · have hsilent := inv.silent _ (latestBegin_waiting hp) hpos
    linarith

/-- At a check the silence is at most the misses counted so far and two more windows. -/
theorem Inv.recent_at_check (hp : σ.phase = .waiting σ.now) (hinstant : instant) :
    σ.now - σ.tracker.lastPongAt ≤ (σ.tracker.missedPongs + 2) * m.window := by
  have hrecent := inv.recent hinstant _ (latestBegin_waiting hp)
  linarith

end Timeless

variable (hI : 0 ≤ m.interval) (hT : 0 ≤ m.timeout)
include hI hT

theorem window_nonneg : 0 ≤ m.window := add_nonneg hI hT

theorem start_inv (connectionId : String) (now : ℚ) :
    m.Inv instant (m.start connectionId now) where
  alive := fun _ => rfl
  begun := by simp [start, nextIteration, latestBegin]
  silent := by simp [start]
  recent := by
    intro _ b hb
    obtain rfl : now = b := by simpa [start, nextIteration, latestBegin] using hb
    have hw := window_nonneg hI hT
    simpa [start] using hw

variable (inv : m.Inv instant σ)
include inv

/-- A pong resets the counter; the iteration began before it. -/
theorem Inv.pong : m.Inv instant { σ with tracker := σ.tracker.recordPong σ.now } where
  alive := inv.alive
  begun := inv.begun
  silent := by simp [HeartbeatTracker.recordPong]
  recent := by
    intro _ b hb
    have hbegun := inv.begun b hb
    have hw := window_nonneg hI hT
    simp only [HeartbeatTracker.recordPong, Nat.cast_zero, zero_add, one_mul]
    linarith

theorem Inv.check (hp : σ.phase = .waiting σ.now) :
    m.Inv instant { σ with
      tracker := m.checkPong σ.now σ.tracker
      phase := m.nextIteration σ.now (m.checkPong σ.now σ.tracker) } := by
  have hw := window_nonneg hI hT
  -- the next iteration, if there is one, begins now
  have hnext : ∀ b ∈ m.latestBegin { σ with
      tracker := m.checkPong σ.now σ.tracker
      phase := m.nextIteration σ.now (m.checkPong σ.now σ.tracker) }, b = σ.now := by
    intro b hb
    cases halive : (m.checkPong σ.now σ.tracker).alive with
    | true => simpa [latestBegin, nextIteration, halive, eq_comm] using hb
    | false => simp [latestBegin, nextIteration, halive] at hb
  constructor
  case alive =>
    intro hne
    by_contra hdead
    exact hne (if_neg hdead)
  case begun =>
    intro b hb
    exact (hnext b hb).le
  case silent =>
    intro b hb hpos
    rw [hnext b hb]
    simp only [checkPong_missedPongs, checkPong_lastPongAt] at hpos ⊢
    by_cases hlate : m.window < σ.now - σ.tracker.lastPongAt
    · have hsilent := inv.silent_at_check hp hlate
      rw [if_pos hlate]
      push_cast
      linarith
    · rw [if_neg hlate, add_zero] at hpos ⊢
      have hsilent := inv.silent _ (latestBegin_waiting hp) hpos
      linarith
  case recent =>
    intro hinstant b hb
    rw [hnext b hb]
    simp only [checkPong_missedPongs, checkPong_lastPongAt]
    by_cases hlate : m.window < σ.now - σ.tracker.lastPongAt
    · have hrecent := inv.recent_at_check hp hinstant
      rw [if_pos hlate]
      push_cast
      linarith
    · rw [if_neg hlate, add_zero]
      have hmissed : (0 : ℚ) ≤ σ.tracker.missedPongs := Nat.cast_nonneg _
      have hmul := mul_nonneg hmissed hw
      linarith

theorem Inv.step {a : HeartbeatAction} (h : m.step σ a = some τ) :
    m.Inv (instant ∧ σ.inSend a = 0) τ := by
  have hweaken : ∀ {υ : HeartbeatState}, m.Inv instant υ →
      m.Inv (instant ∧ σ.inSend a = 0) υ := fun hυ =>
    { alive := hυ.alive
      begun := hυ.begun
      silent := hυ.silent
      recent := fun hinstant => hυ.recent hinstant.1 }
  cases a with
  | advance duration =>
      obtain ⟨hpos, _, rfl⟩ := step_advance h
      exact inv.advance hpos
  | pong =>
      obtain rfl := Option.some.inj h
      exact hweaken (inv.pong hI hT)
  | wake =>
      obtain ⟨hp, rfl⟩ := step_wake h
      exact hweaken (inv.wake hp)
  | sendReturned =>
      obtain ⟨message, hp, rfl⟩ := step_sendReturned h
      exact hweaken (inv.sendReturned hp)
  | sendRaised =>
      obtain ⟨_, _, rfl⟩ := step_sendRaised h
      exact
        { alive := fun hne => absurd rfl hne
          begun := by simp [latestBegin]
          silent := by simp [latestBegin]
          recent := by simp [latestBegin] }
  | check =>
      obtain ⟨hp, rfl⟩ := step_check h
      exact hweaken (inv.check hI hT hp)

/-- A check that ends a living tracker follows a silence longer than the bound. -/
theorem Inv.dead_of_check (h : m.step σ .check = some τ) (hdead : τ.tracker.alive = false) :
    m.deathBound < σ.tracker.secondsSincePong σ.now := by
  obtain ⟨hp, rfl⟩ := step_check h
  have halive := inv.alive (by simp [hp])
  have hnot : ¬ (m.checkPong σ.now σ.tracker).alive = true := by
    intro he
    rw [he] at hdead
    simp at hdead
  rw [checkPong_alive, halive] at hnot
  obtain ⟨hlate, hmax⟩ : m.window < σ.now - σ.tracker.lastPongAt ∧
      m.maxMissed ≤ σ.tracker.missedPongs + 1 := by
    simpa using hnot
  have hbound : max 1 m.maxMissed ≤ (σ.tracker.missedPongs + 1 : ℤ) := by
    apply max_le
    · omega
    · exact hmax
  have hcast : ((max 1 m.maxMissed : ℤ) : ℚ) ≤ (σ.tracker.missedPongs : ℚ) + 1 := by
    exact_mod_cast hbound
  calc
    m.deathBound ≤ (σ.tracker.missedPongs + 1) * m.window :=
      mul_le_mul_of_nonneg_right hcast (window_nonneg hI hT)
    _ < σ.tracker.secondsSincePong σ.now := inv.silent_at_check hp hlate

/-- With instantaneous sends, a check that lets the tracker live follows no such silence. -/
theorem Inv.alive_of_check (h : m.step σ .check = some τ) (hinstant : instant)
    (halive : τ.tracker.alive = true) :
    σ.tracker.secondsSincePong σ.now ≤ m.deathBound := by
  obtain ⟨hp, rfl⟩ := step_check h
  have hw := window_nonneg hI hT
  have hkept := ((checkPong_alive σ.now σ.tracker).mp halive).2
  by_cases hlate : m.window < σ.now - σ.tracker.lastPongAt
  · have hbound : (σ.tracker.missedPongs + 2 : ℤ) ≤ max 1 m.maxMissed := by
      have hmax := hkept hlate
      apply le_max_of_le_right
      omega
    have hcast : (σ.tracker.missedPongs : ℚ) + 2 ≤ ((max 1 m.maxMissed : ℤ) : ℚ) := by
      exact_mod_cast hbound
    calc
      σ.tracker.secondsSincePong σ.now ≤ (σ.tracker.missedPongs + 2) * m.window :=
        inv.recent_at_check hp hinstant
      _ ≤ m.deathBound := mul_le_mul_of_nonneg_right hcast hw
  · have hone : (1 : ℚ) ≤ ((max 1 m.maxMissed : ℤ) : ℚ) := by
      exact_mod_cast le_max_left 1 m.maxMissed
    calc
      σ.tracker.secondsSincePong σ.now ≤ 1 * m.window := by
        rw [one_mul]
        exact not_lt.mp hlate
      _ ≤ m.deathBound := mul_le_mul_of_nonneg_right hone hw

end Steps

variable {m}

theorem inv_of_run (hI : 0 ≤ m.interval) (hT : 0 ≤ m.timeout) {connectionId : String}
    {now : ℚ} {acts : List HeartbeatAction} {σ : HeartbeatState}
    (run : Run m.step (m.start connectionId now) acts σ) :
    m.Inv (m.InstantSends (m.start connectionId now) acts) σ := by
  induction run with
  | nil => exact start_inv hI hT connectionId now
  | snoc run h ih =>
      rw [InstantSends, EachStep.snoc_iff run]
      exact ih.step hI hT h

/-- A client whose silence never exceeds the bound stays alive while its sends succeed. -/
theorem alive_of_run (hI : 0 ≤ m.interval) (hT : 0 ≤ m.timeout) {connectionId : String}
    {now : ℚ} {acts : List HeartbeatAction} {σ : HeartbeatState}
    (run : Run m.step (m.start connectionId now) acts σ) (hsends : .sendRaised ∉ acts)
    (hheard : ∀ pre, pre <+: acts → silence pre ≤ m.deathBound) :
    σ.tracker.alive = true := by
  induction run with
  | nil => rfl
  | @snoc acts σ a τ run h ih =>
      have hbefore : acts <+: acts ++ [a] := List.prefix_append acts [a]
      simp only [List.mem_append, List.mem_singleton, not_or] at hsends
      have halive := ih hsends.1 fun pre hpre => hheard pre (hpre.trans hbefore)
      cases a with
      | advance duration =>
          obtain ⟨_, _, rfl⟩ := step_advance h
          exact halive
      | pong =>
          obtain rfl := Option.some.inj h
          exact halive
      | wake =>
          obtain ⟨_, rfl⟩ := step_wake h
          exact halive
      | sendReturned =>
          obtain ⟨_, _, rfl⟩ := step_sendReturned h
          exact halive
      | sendRaised => exact absurd rfl hsends.2
      | check =>
          by_contra hdead
          have hbound := (inv_of_run hI hT run).dead_of_check hI hT h (by simpa using hdead)
          rw [secondsSincePong_of_run run] at hbound
          exact absurd (hheard acts hbefore) (not_le.mpr hbound)

/-- The death criterion, where silence is read off the pongs of the run: (i) a check declares a
client dead only after more than the bound of silence; (ii) if no time passed in the sends,
every check past the bound declares it dead; and a client that was never silent for longer
than the bound is alive as long as its sends succeed. -/
theorem death_criterion (hI : 0 ≤ m.interval) (hT : 0 ≤ m.timeout) {connectionId : String}
    {now : ℚ} {acts : List HeartbeatAction} {σ : HeartbeatState}
    (run : Run m.step (m.start connectionId now) acts σ) :
    (∀ τ, m.step σ .check = some τ →
      (τ.tracker.alive = false → m.deathBound < silence acts) ∧
      (m.InstantSends (m.start connectionId now) acts → τ.tracker.alive = true →
        silence acts ≤ m.deathBound)) ∧
    (.sendRaised ∉ acts → (∀ pre, pre <+: acts → silence pre ≤ m.deathBound) →
      σ.tracker.alive = true) := by
  have inv := inv_of_run hI hT run
  refine ⟨?_, fun hsends hheard => alive_of_run hI hT run hsends hheard⟩
  intro τ h
  rw [← secondsSincePong_of_run run]
  exact ⟨inv.dead_of_check hI hT h, inv.alive_of_check hI hT h⟩

/-- A client misses the second ping, is heard once more, and misses the last two; the five
checks are made at the times 4, 8, 12, 16 and 20, the last of them not yet. -/
def heardOnceActs : List HeartbeatAction :=
  [.advance 3, .wake, .sendReturned, .advance 1, .check,
    .advance 3, .wake, .sendReturned, .advance 1, .check,
    .advance 1, .pong, .advance 2, .wake, .sendReturned, .advance 1, .check,
    .advance 3, .wake, .sendReturned, .advance 1, .check,
    .advance 3, .wake, .sendReturned, .advance 1]

/-- The client is alive at 16, after seven seconds of silence, and dead at 20, after eleven;
without the pong at 9 it would have been dead at 12. -/
theorem death_criterion_heard_once :
    let m : HeartbeatManager := { interval := 3, timeout := 1, maxMissed := 2 }
    let σ := (exec m.step (m.start "c" 0) heardOnceActs).get (by decide +kernel)
    m.deathBound = 8 ∧ silence heardOnceActs = 11 ∧ σ.tracker.alive = true ∧
      ∃ τ, m.step σ .check = some τ ∧ τ.tracker.alive = false ∧
        m.deathBound < silence heardOnceActs := by
  intro m σ
  have run : Run m.step (m.start "c" 0) heardOnceActs σ := run_get _
  have hcheck := (Option.some_get (x := m.step σ .check) (by decide +kernel)).symm
  have hdead : ((m.step σ .check).get (by decide +kernel)).tracker.alive = false := by
    decide +kernel
  have hcriterion := (death_criterion (by decide +kernel) (by decide +kernel) run).1 _ hcheck
  refine ⟨by decide +kernel, by decide +kernel, by decide +kernel, ?_⟩
  exact ⟨_, hcheck, hdead, hcriterion.1 hdead⟩

end WebSocketPatterns.FaultTolerance.HeartbeatManager
