import WebSocketPatterns.FaultTolerance.SweepRuns

/-!
# What a sweep may untrack and report

The sweep decides once which connections are dead, then awaits a callback for
each and afterwards deletes by id. What it deletes is what it reported unless
another object was tracked under the id in between; what it reports is still
tracked and idle unless it was touched, or active, after the sweep began.
-/

namespace WebSocketPatterns.FaultTolerance.DetectorState

open Transition

/-- A tracked object leaves the detector only by an explicit `untrack`, by replacement, or by
the untrack that follows its own `on_dead`. -/
def LeavesOnlyReported (σ : DetectorState) (a : DetectorAction) : Prop :=
  ∀ τ, σ.step a = some τ → ∀ connectionId h, σ.detector.tracked connectionId = some h →
    τ.detector.tracked connectionId ≠ some h →
      a = .untrack connectionId ∨
      (∃ other, a = .track other ∧ σ.idOf other = connectionId) ∨
      (∃ raised, a = .onDeadDone raised) ∧ σ.phase.current? = some h

/-- When `on_dead` is done, the last call on its connection's id since the sweep began was not
a `track` of another object. -/
def NotReplaced (ids : Nat → String) (acts : List DetectorAction) (σ : DetectorState) :
    DetectorAction → Prop
  | .onDeadDone _ => ∀ h ∈ σ.phase.current?, ∀ other ∈ (lastTouch ids (ids h) acts).join,
      other = h
  | _ => True

instance (ids : Nat → String) (acts : List DetectorAction) (σ : DetectorState)
    (a : DetectorAction) : Decidable (NotReplaced ids acts σ a) := by
  cases a <;> unfold NotReplaced <;> infer_instance

/-- Whatever the loop passes to `on_dead` is tracked then, and idle for longer than the
threshold. -/
def ReportsOnlyDead (σ : DetectorState) (a : DetectorAction) : Prop :=
  ∀ τ, σ.step a = some τ → (a = .wake ∨ ∃ raised, a = .onDeadDone raised) →
    ∀ h ∈ τ.phase.current?, τ.detector.tracked (τ.idOf h) = some h ∧
      τ.detector.idleThreshold < (τ.heap h).idleSeconds τ.now

/-- The next connection to be reported, once the present report is done. -/
def nextReport : SweepPhase → Option Nat
  | .sleeping => none
  | .reporting _ rest => rest.head?

/-- When the loop goes on to the next connection, the last call on its id since the sweep
began, if any, tracked it again, and any activity recorded on it since is longer ago than the
threshold. -/
def StillDead (ids : Nat → String) (acts : List DetectorAction) (σ : DetectorState) :
    DetectorAction → Prop
  | .onDeadDone _ => ∀ h ∈ nextReport σ.phase,
      (∀ touch ∈ lastTouch ids (ids h) acts, touch = some h) ∧
        ∀ d ∈ quietFor h acts, σ.detector.idleThreshold < d
  | _ => True

instance (ids : Nat → String) (acts : List DetectorAction) (σ : DetectorState)
    (a : DetectorAction) : Decidable (StillDead ids acts σ a) := by
  cases a <;> unfold StillDead <;> infer_instance

section Steps

variable {ids : Nat → String} {acts : List DetectorAction} {σ τ : DetectorState}
  {a : DetectorAction} (inv : Inv ids acts σ)
include inv

/-- A connection of the sweep is still tracked exactly when nothing else was done to its id. -/
theorem Inv.tracked_iff {h : Nat} (hp : h ∈ pending σ.phase) :
    σ.detector.tracked (ids h) = some h ↔ ∀ touch ∈ lastTouch ids (ids h) acts,
      touch = some h := by
  rw [inv.touched h hp]
  cases lastTouch ids (ids h) acts <;> simp

/-- A connection of the sweep is idle exactly when activity on it, if any, is long ago. -/
theorem Inv.idle_iff {h : Nat} (hp : h ∈ pending σ.phase) :
    σ.detector.idleThreshold < (σ.heap h).idleSeconds σ.now ↔
      ∀ d ∈ quietFor h acts, σ.detector.idleThreshold < d := by
  cases hq : quietFor h acts with
  | none => simpa using inv.idle h hp hq
  | some d => simp [inv.quiet h hp d hq]

/-- Only the loop's own untrack can remove what was not reported. -/
theorem Inv.leavesOnlyReported_iff (h : σ.step a = some τ) :
    σ.LeavesOnlyReported a ↔ NotReplaced ids acts σ a := by
  have hsame : ∀ υ, σ.step a = some υ → υ.detector = σ.detector → σ.LeavesOnlyReported a := by
    intro υ hυ hdetector ρ hρ connectionId other htracked hgone
    obtain rfl := Option.some.inj (hυ.symm.trans hρ)
    rw [hdetector] at hgone
    exact absurd htracked hgone
  cases a with
  | advance duration =>
      refine iff_of_true (hsame τ h ?_) trivial
      obtain ⟨_, rfl⟩ := step_advance h
      rfl
  | track other =>
      refine iff_of_true ?_ trivial
      intro υ hυ connectionId health htracked hgone
      obtain rfl := Option.some.inj hυ
      rw [DeadClientDetector.tracked_track] at hgone
      split at hgone
      · rename_i he
        exact Or.inr (Or.inl ⟨other, rfl, he.symm⟩)
      · exact absurd htracked hgone
  | untrack removed =>
      refine iff_of_true ?_ trivial
      intro υ hυ connectionId health htracked hgone
      obtain rfl := Option.some.inj hυ
      rw [DeadClientDetector.tracked_untrack] at hgone
      split at hgone
      · rename_i he
        exact Or.inl (congrArg _ he.symm)
      · exact absurd htracked hgone
  | recordSend health => exact iff_of_true (hsame _ rfl rfl) trivial
  | recordReceive health => exact iff_of_true (hsame _ rfl rfl) trivial
  | recordError health => exact iff_of_true (hsame _ rfl rfl) trivial
  | wake =>
      refine iff_of_true (hsame τ h ?_) trivial
      obtain rfl := step_wake h
      rfl
  | onDeadDone raised =>
      obtain ⟨current, rest, hp, hτ⟩ := step_onDeadDone h
      have hcurrent : σ.phase.current? = some current := by
        rw [hp]
        rfl
      have htracked' : ∀ connectionId, τ.detector.tracked connectionId =
          if connectionId = ids current then none else σ.detector.tracked connectionId := by
        intro connectionId
        rw [hτ, DeadClientDetector.tracked_untrack, inv.named]
      have hcond : NotReplaced ids acts σ (.onDeadDone raised) ↔
          ∀ other, σ.detector.tracked (ids current) = some other → other = current := by
        rw [inv.touched current (by rw [hp]; exact List.mem_cons_self)]
        simp only [NotReplaced, hcurrent, Option.mem_def, Option.some.injEq, forall_eq']
        cases lastTouch ids (ids current) acts <;> simp
      rw [hcond]
      constructor
      · intro hleaves other htracked
        rcases hleaves τ h (ids current) other htracked (by simp [htracked']) with
          he | ⟨_, he, _⟩ | ⟨_, he⟩
        · simp at he
        · simp at he
        · exact (Option.some.inj (hcurrent.symm.trans he)).symm
      · intro honly υ hυ connectionId other htracked hgone
        obtain rfl := Option.some.inj (h.symm.trans hυ)
        rw [htracked'] at hgone
        split at hgone
        · rename_i he
          obtain rfl := honly other (he ▸ htracked)
          exact Or.inr (Or.inr ⟨⟨raised, rfl⟩, hcurrent⟩)
        · exact absurd htracked hgone

/-- A sweep's first report is always due; a later one is due unless it was touched or active. -/
theorem Inv.reportsOnlyDead_iff (h : σ.step a = some τ) :
    σ.ReportsOnlyDead a ↔ StillDead ids acts σ a := by
  have inv' := inv.step h
  have hidle : ∀ act, a = act → (act ≠ .wake ∧ ∀ raised, act ≠ .onDeadDone raised) →
      σ.ReportsOnlyDead a := by
    intro act hact hne υ _ hcase
    rcases hcase with he | ⟨raised, he⟩
    · exact absurd (hact.symm.trans he) hne.1
    · exact absurd (hact.symm.trans he) (hne.2 raised)
  have hreports : (a = .wake ∨ ∃ raised, a = .onDeadDone raised) → (σ.ReportsOnlyDead a ↔
      ∀ next ∈ τ.phase.current?, (∀ touch ∈ lastTouch ids (ids next) (acts ++ [a]),
        touch = some next) ∧ ∀ d ∈ quietFor next (acts ++ [a]), τ.detector.idleThreshold < d) := by
    intro hcase
    have hpending : ∀ next ∈ τ.phase.current?, next ∈ pending τ.phase := by
      intro next hnext
      cases hp : τ.phase with
      | sleeping => simp [hp, SweepPhase.current?] at hnext
      | reporting current rest =>
          obtain rfl : current = next := by simpa [hp, SweepPhase.current?] using hnext
          exact List.mem_cons_self
    constructor
    · intro hdead next hnext
      obtain ⟨htracked, hlong⟩ := hdead τ h hcase next hnext
      rw [inv'.named] at htracked
      exact ⟨(inv'.tracked_iff (hpending next hnext)).mp htracked,
        (inv'.idle_iff (hpending next hnext)).mp hlong⟩
    · intro hcond υ hυ _ next hnext
      obtain rfl := Option.some.inj (h.symm.trans hυ)
      obtain ⟨htouch, hquiet⟩ := hcond next hnext
      rw [inv'.named]
      exact ⟨(inv'.tracked_iff (hpending next hnext)).mpr htouch,
        (inv'.idle_iff (hpending next hnext)).mpr hquiet⟩
  cases a with
  | wake =>
      refine iff_of_true ((hreports (Or.inl rfl)).mpr ?_) trivial
      intro next _
      rw [lastTouch_snoc, quietFor_snoc]
      simp
  | onDeadDone raised =>
      rw [hreports (Or.inr ⟨raised, rfl⟩)]
      obtain ⟨current, rest, hp, rfl⟩ := step_onDeadDone h
      have hnext : (reportNext rest).current? = nextReport σ.phase := by
        rw [hp]
        cases rest <;> rfl
      simp only [StillDead, ← hnext, lastTouch_snoc, quietFor_snoc]
      exact Iff.rfl
  | advance duration => exact iff_of_true (hidle _ rfl (by simp)) trivial
  | track health => exact iff_of_true (hidle _ rfl (by simp)) trivial
  | untrack connectionId => exact iff_of_true (hidle _ rfl (by simp)) trivial
  | recordSend health => exact iff_of_true (hidle _ rfl (by simp)) trivial
  | recordReceive health => exact iff_of_true (hidle _ rfl (by simp)) trivial
  | recordError health => exact iff_of_true (hidle _ rfl (by simp)) trivial

end Steps

/-- Three health objects; the last one belongs to a client that reconnects as the first. -/
def clients : Nat → ConnectionHealth
  | 0 => { connectionId := "x", lastActivityAt := 0 }
  | 1 => { connectionId := "y", lastActivityAt := 0 }
  | _ => { connectionId := "x", lastActivityAt := 100 }

/-- In a run every tracked object leaves properly if and only if no report of the run is done
while another object was last tracked under its id. -/
theorem leaves_only_reported_iff {idleThreshold now : ℚ} {heap : Nat → ConnectionHealth}
    {acts : List DetectorAction} {σ : DetectorState}
    (run : Run step (start idleThreshold now heap) acts σ) :
    EachStep step (start idleThreshold now heap) (fun _ σ a => σ.LeavesOnlyReported a) acts ↔
      EachStep step (start idleThreshold now heap)
        (NotReplaced fun h => (heap h).connectionId) acts := by
  apply eachStep_congr ?_ run
  intro _ _ _ _ run h
  exact (inv_of_run run).leavesOnlyReported_iff h

/-- The client reconnects after its report is done. -/
def reconnectLaterActs : List DetectorAction :=
  [.track 0, .track 1, .advance 100, .wake, .onDeadDone false, .track 2, .onDeadDone true]

theorem leaves_only_reported_reconnectLater :
    EachStep step (start 60 0 clients) (fun _ σ a => σ.LeavesOnlyReported a)
      reconnectLaterActs := by
  have run := run_get
    (show (exec step (start 60 0 clients) reconnectLaterActs).isSome from by decide +kernel)
  apply (leaves_only_reported_iff run).mpr
  decide +kernel

/-- The client reconnects while its old connection is being reported. -/
def reconnectActs : List DetectorAction := [.track 0, .advance 100, .wake, .track 2]

/-- The untrack after the report removes the fresh connection. -/
theorem fresh_connection_untracked :
    ∃ σ τ, Run step (start 60 0 clients) reconnectActs σ ∧ σ.phase = .reporting 0 [] ∧
      σ.detector.tracked "x" = some 2 ∧ σ.step (.onDeadDone false) = some τ ∧
      τ.detector.tracked "x" = none ∧ ¬ σ.LeavesOnlyReported (.onDeadDone false) := by
  have run := run_get
    (show (exec step (start 60 0 clients) reconnectActs).isSome from by decide +kernel)
  have hstep := (Option.some_get (x := ((exec step (start 60 0 clients) reconnectActs).get
    (by decide +kernel)).step (.onDeadDone false)) (by decide +kernel)).symm
  refine ⟨_, _, run, by decide +kernel, by decide +kernel, hstep, by decide +kernel, ?_⟩
  intro hleaves
  rcases hleaves _ hstep "x" 2 (by decide +kernel) (by decide +kernel) with
    he | ⟨_, he, _⟩ | ⟨_, he⟩
  · simp at he
  · simp at he
  · exact absurd he (by decide +kernel)

/-- In a run only tracked and idle connections are reported if and only if no connection
is touched, or active within the threshold, between the start of its sweep and its report. -/
theorem reports_only_dead_iff {idleThreshold now : ℚ} {heap : Nat → ConnectionHealth}
    {acts : List DetectorAction} {σ : DetectorState}
    (run : Run step (start idleThreshold now heap) acts σ) :
    EachStep step (start idleThreshold now heap) (fun _ σ a => σ.ReportsOnlyDead a) acts ↔
      EachStep step (start idleThreshold now heap)
        (StillDead fun h => (heap h).connectionId) acts := by
  apply eachStep_congr ?_ run
  intro _ _ _ _ run h
  exact (inv_of_run run).reportsOnlyDead_iff h

/-- Two dead connections; the second is active before the first report is done, and the report
takes longer than the threshold. -/
def activeEarlyActs : List DetectorAction :=
  [.track 0, .track 1, .advance 100, .wake, .recordReceive 1, .recordError 1, .advance 61,
    .onDeadDone true, .onDeadDone false]

theorem reports_only_dead_activeEarly :
    EachStep step (start 60 0 clients) (fun _ σ a => σ.ReportsOnlyDead a) activeEarlyActs := by
  have run := run_get
    (show (exec step (start 60 0 clients) activeEarlyActs).isSome from by decide +kernel)
  apply (reports_only_dead_iff run).mpr
  decide +kernel

/-- Two dead connections; the second receives a message while the first is being reported. -/
def activeActs : List DetectorAction :=
  [.track 0, .track 1, .advance 100, .wake, .recordReceive 1]

/-- The second is reported dead with no idle time at all. -/
theorem active_connection_reported :
    ∃ σ τ, Run step (start 60 0 clients) activeActs σ ∧
      σ.step (.onDeadDone false) = some τ ∧ τ.phase = .reporting 1 [] ∧
      (τ.heap 1).idleSeconds τ.now = 0 ∧ ¬ σ.ReportsOnlyDead (.onDeadDone false) := by
  have run := run_get
    (show (exec step (start 60 0 clients) activeActs).isSome from by decide +kernel)
  have hstep := (Option.some_get (x := ((exec step (start 60 0 clients) activeActs).get
    (by decide +kernel)).step (.onDeadDone false)) (by decide +kernel)).symm
  refine ⟨_, _, run, hstep, by decide +kernel, by decide +kernel, ?_⟩
  intro hdead
  have hidle := (hdead _ hstep (Or.inr ⟨false, rfl⟩) 1 (by decide +kernel)).2
  exact absurd hidle (by decide +kernel)

end WebSocketPatterns.FaultTolerance.DetectorState
