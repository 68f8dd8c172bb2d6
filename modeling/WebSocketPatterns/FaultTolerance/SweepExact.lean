import WebSocketPatterns.FaultTolerance.SweepRuns

/-!
# What one sweep does, and what many sweeps do

While other tasks leave the detector alone, a sweep is a loop over a fixed list:
the connections done, the one being reported and those to come always make up
the connections that were idle when it began. Over any run, a connection is
reported at most once for each time it was tracked.
-/

namespace WebSocketPatterns.FaultTolerance

open Transition

/-- No other task calls the detector, and no other sweep begins. -/
def DetectorAction.duringSweep : DetectorAction → Bool
  | .track _ => false
  | .untrack _ => false
  | .wake => false
  | _ => true

namespace DetectorState

/-- An object has been idle for longer than the threshold. -/
def Idle (σ : DetectorState) (health : Nat) : Prop :=
  σ.detector.idleThreshold < (σ.heap health).idleSeconds σ.now

instance (σ : DetectorState) (health : Nat) : Decidable (σ.Idle health) :=
  inferInstanceAs (Decidable (_ < _))

/-- The tracked connections that are idle, in tracking order. -/
def due (σ : DetectorState) : List Nat :=
  σ.detector.connections.values.filter fun h => σ.Idle h

/-- The `on_dead` call an action begins, if it begins one. -/
def begins (σ : DetectorState) : DetectorAction → Option Nat
  | .wake => (σ.step .wake).bind fun τ => τ.phase.current?
  | .onDeadDone raised => (σ.step (.onDeadDone raised)).bind fun τ => τ.phase.current?
  | _ => none

/-- The `on_dead` calls that a run begins, in their order. -/
def calls (σ : DetectorState) (acts : List DetectorAction) : List Nat :=
  (trace step σ acts).filterMap fun visit => visit.1.begins visit.2

theorem findDead_eq_due (σ : DetectorState) : σ.detector.findDead σ.heap σ.now = σ.due := rfl

theorem begins_wake {σ τ : DetectorState} (h : σ.step .wake = some τ) :
    σ.begins .wake = τ.phase.current? := by
  simp [begins, h]

theorem begins_onDeadDone {σ τ : DetectorState} {raised : Bool}
    (h : σ.step (.onDeadDone raised) = some τ) :
    σ.begins (.onDeadDone raised) = τ.phase.current? := by
  simp [begins, h]

theorem calls_snoc {σ τ : DetectorState} {acts : List DetectorAction} (run : Run step σ acts τ)
    (a : DetectorAction) : calls σ (acts ++ [a]) = calls σ acts ++ (τ.begins a).toList := by
  rw [calls, run.trace_snoc, List.filterMap_append]
  cases h : τ.begins a <;> simp [calls, h]

/-! ## One sweep -/

/-- How far the sweep that began in `σ` has come in `τ`: which connections are done, and that
the detector has lost these and no others. -/
structure Progress (σ : DetectorState) (acts : List DetectorAction) (τ : DetectorState)
    (done : List Nat) : Prop where
  named : ∀ h, τ.idOf h = σ.idOf h
  called : calls σ acts = done ++ τ.phase.current?.toList
  due : done ++ pending τ.phase = σ.due
  entries : τ.detector.connections.entries =
    σ.detector.connections.entries.filter fun e => e.1 ∉ done.map σ.idOf

section Sweep

variable {σ τ υ : DetectorState} {acts : List DetectorAction} {done : List Nat}

@[simp] theorem current?_toList_append_tail (phase : SweepPhase) :
    phase.current?.toList ++ (pending phase).tail = pending phase := by
  cases phase <;> rfl

/-- The sweep begins with nothing done. -/
theorem progress_wake (h : σ.step .wake = some τ) : Progress σ [.wake] τ [] := by
  have hcalls : calls σ [.wake] = τ.phase.current?.toList := by
    rw [← begins_wake h]
    exact calls_snoc Run.nil .wake
  obtain rfl := step_wake h
  refine ⟨fun _ => rfl, hcalls, ?_, by simp⟩
  rw [findDead_eq_due, pending_reportNext]
  rfl

/-- An action of another task leaves the sweep where it is. -/
theorem Progress.frame (progress : Progress σ acts τ done) (run : Run step σ acts τ)
    {a : DetectorAction} (hbegins : τ.begins a = none) (hnamed : ∀ h, υ.idOf h = τ.idOf h)
    (hphase : υ.phase = τ.phase) (hdetector : υ.detector = τ.detector) :
    Progress σ (acts ++ [a]) υ done := by
  refine ⟨fun h => (hnamed h).trans (progress.named h), ?_, ?_, ?_⟩
  · rw [calls_snoc run, hbegins, progress.called, hphase]
    simp
  · rw [hphase]
    exact progress.due
  · rw [hdetector]
    exact progress.entries

/-- A finished report takes its connection from the pending ones to the done ones. -/
theorem Progress.onDeadDone (progress : Progress σ acts τ done) (run : Run step σ acts τ)
    {raised : Bool} {current : Nat} {rest : List Nat} (hp : τ.phase = .reporting current rest)
    (h : τ.step (.onDeadDone raised) = some υ) (hυ : υ = { τ with
      detector := τ.detector.untrack (τ.idOf current)
      phase := reportNext rest }) :
    Progress σ (acts ++ [.onDeadDone raised]) υ (done ++ [current]) := by
  have hcurrent : τ.phase.current?.toList = [current] := by rw [hp]; rfl
  have hpending : pending τ.phase = current :: rest := by rw [hp]; rfl
  refine ⟨?_, ?_, ?_, ?_⟩
  · rw [hυ]
    exact progress.named
  · rw [calls_snoc run, progress.called, begins_onDeadDone h, hcurrent]
  · rw [← progress.due, hpending, hυ, pending_reportNext, List.append_assoc]
    rfl
  · have hentries : υ.detector.connections.entries =
        τ.detector.connections.entries.filter fun e => e.1 ≠ τ.idOf current := by
      rw [hυ]
      exact Dict.entries_erase _ _
    rw [hentries, progress.entries, List.filter_filter, progress.named]
    apply List.filter_congr
    intro e _
    simp [and_comm]

theorem Progress.step (progress : Progress σ acts τ done) (run : Run step σ acts τ)
    {a : DetectorAction} (hduring : a.duringSweep) (h : τ.step a = some υ) :
    ∃ done', Progress σ (acts ++ [a]) υ done' := by
  cases a with
  | advance duration =>
      obtain ⟨_, rfl⟩ := step_advance h
      exact ⟨done, progress.frame run rfl (fun _ => rfl) rfl rfl⟩
  | track health => simp [DetectorAction.duringSweep] at hduring
  | untrack connectionId => simp [DetectorAction.duringSweep] at hduring
  | recordSend health =>
      obtain rfl := Option.some.inj h
      exact ⟨done, progress.frame run rfl (modify_idOf τ health fun _ => rfl) rfl rfl⟩
  | recordReceive health =>
      obtain rfl := Option.some.inj h
      exact ⟨done, progress.frame run rfl (modify_idOf τ health fun _ => rfl) rfl rfl⟩
  | recordError health =>
      obtain rfl := Option.some.inj h
      exact ⟨done, progress.frame run rfl (modify_idOf τ health fun _ => rfl) rfl rfl⟩
  | wake => simp [DetectorAction.duringSweep] at hduring
  | onDeadDone raised =>
      obtain ⟨current, rest, hp, hυ⟩ := step_onDeadDone h
      exact ⟨done ++ [current], progress.onDeadDone run hp h hυ⟩

theorem progress_of_run (run : Run DetectorState.step σ (.wake :: acts) τ)
    (hduring : ∀ a ∈ acts, a.duringSweep) : ∃ done, Progress σ (.wake :: acts) τ done := by
  obtain ⟨υ, hwake, hrest⟩ := Run.cons_iff.mp run
  clear run
  induction hrest with
  | nil => exact ⟨[], progress_wake hwake⟩
  | snoc rest h ih =>
      obtain ⟨done, progress⟩ := ih fun a ha => hduring a (List.mem_append_left _ ha)
      have hlast := hduring _ (List.mem_append_right _ (List.mem_singleton.mpr rfl))
      exact progress.step (Run.cons_iff.mpr ⟨υ, hwake, rest⟩) hlast h

/-- Whatever the callbacks do, the sweep gets to its end. -/
theorem sweep_completes (outcomes : List Bool) (τ : DetectorState)
    (hlength : outcomes.length = (pending τ.phase).length) :
    ∃ υ, Run DetectorState.step τ (outcomes.map .onDeadDone) υ ∧ υ.phase = .sleeping := by
  induction outcomes generalizing τ with
  | nil =>
      refine ⟨τ, Run.nil, ?_⟩
      cases hp : τ.phase with
      | sleeping => rfl
      | reporting current rest => simp [hp, pending] at hlength
  | cons raised outcomes ih =>
      cases hp : τ.phase with
      | sleeping => simp [hp, pending] at hlength
      | reporting current rest =>
          obtain ⟨next, hstep, hrest⟩ :
              ∃ next, τ.step (.onDeadDone raised) = some next ∧ pending next.phase = rest := by
            simp [DetectorState.step, hp]
          rw [hp] at hlength
          obtain ⟨υ, run, hsleeping⟩ := ih next (by rw [hrest]; exact Nat.succ.inj hlength)
          exact ⟨υ, Run.cons_iff.mpr ⟨next, hstep, run⟩, hsleeping⟩

end Sweep

/-! ## Many sweeps -/

/-- An action that tracks an object under the id. -/
def tracksId (ids : Nat → String) (connectionId : String) : DetectorAction → Bool
  | .track health => ids health = connectionId
  | _ => false

/-- One if a report of the id can come without tracking it again: a connection of that id waits
in the sweep, or is tracked and is not the one being reported. -/
def owed (ids : Nat → String) (connectionId : String) (σ : DetectorState) : Nat :=
  if connectionId ∈ (pending σ.phase).tail.map ids ∨
      (σ.detector.tracked connectionId).isSome ∧
        connectionId ∉ σ.phase.current?.toList.map ids then 1 else 0

section Sweeps

variable {ids : Nat → String} {connectionId : String} {acts : List DetectorAction}
  {σ τ : DetectorState} {a : DetectorAction}

theorem owed_le_one (ids : Nat → String) (connectionId : String) (σ : DetectorState) :
    owed ids connectionId σ ≤ 1 := by
  rw [owed]
  split <;> omega

/-- A call that begins uses up what was owed for its id. -/
theorem count_current_add_owed_le {dead : List Nat} (hphase : τ.phase = reportNext dead)
    (hdistinct : (dead.map ids).Nodup) :
    (τ.phase.current?.toList.map ids).count connectionId + owed ids connectionId τ ≤
      if connectionId ∈ dead.map ids ∨ (τ.detector.tracked connectionId).isSome then 1 else 0 := by
  cases dead with
  | nil =>
      rw [owed, hphase]
      simp [reportNext, pending, SweepPhase.current?]
  | cons current rest =>
      rw [List.map_cons, List.nodup_cons] at hdistinct
      rw [owed, hphase]
      by_cases hcurrent : ids current = connectionId
      · subst hcurrent
        have hother : ids current ∉ rest.map ids := hdistinct.1
        simp [reportNext, pending, SweepPhase.current?, -List.mem_map, hother]
      · simp [reportNext, pending, SweepPhase.current?, -List.mem_map, hcurrent, Ne.symm hcurrent]

/-- An action that calls nobody owes at most what it tracks. -/
theorem owed_le_of_tracked (hphase : τ.phase = σ.phase)
    (htracked : (τ.detector.tracked connectionId).isSome →
      (σ.detector.tracked connectionId).isSome) :
    owed ids connectionId τ ≤ owed ids connectionId σ := by
  rw [owed, owed, hphase]
  split
  · rename_i h
    rw [if_pos (h.imp_right fun ⟨hτ, hother⟩ => ⟨htracked hτ, hother⟩)]
  · exact Nat.zero_le _

/-- Every connection of a new sweep is tracked, so that its report was owed already. -/
theorem Inv.owed_wake (inv : Inv ids acts σ) (h : σ.step .wake = some τ)
    (connectionId : String) :
    (τ.phase.current?.toList.map ids).count connectionId + owed ids connectionId τ ≤
      owed ids connectionId σ := by
  have hτ := step_wake h
  have hused : (τ.phase.current?.toList.map ids).count connectionId + owed ids connectionId τ ≤ _ :=
    count_current_add_owed_le (by rw [hτ]) inv.nodup_findDead
  apply hused.trans_eq
  have hdead : connectionId ∈ (σ.detector.findDead σ.heap σ.now).map ids →
      (σ.detector.tracked connectionId).isSome := by
    intro hmem
    obtain ⟨health, hhealth, rfl⟩ := List.mem_map.mp hmem
    rw [(inv.mem_findDead hhealth).1]
    rfl
  rw [owed, sleeping_of_wake h, hτ]
  simp [pending, SweepPhase.current?, -List.mem_map, or_iff_right_of_imp hdead]

/-- The id of a finished report is untracked; the next report comes from those that waited. -/
theorem Inv.owed_onDeadDone (inv : Inv ids acts σ) {raised : Bool}
    (h : σ.step (.onDeadDone raised) = some τ) (connectionId : String) :
    (τ.phase.current?.toList.map ids).count connectionId + owed ids connectionId τ ≤
      owed ids connectionId σ := by
  obtain ⟨current, rest, hp, hτ⟩ := step_onDeadDone h
  have hdistinct : (rest.map ids).Nodup := by
    have hall := inv.distinct
    rw [hp] at hall
    exact (List.nodup_cons.mp hall).2
  have hused : (τ.phase.current?.toList.map ids).count connectionId + owed ids connectionId τ ≤ _ :=
    count_current_add_owed_le (by rw [hτ]) hdistinct
  apply hused.trans_eq
  rw [owed, hp, hτ, DeadClientDetector.tracked_untrack, inv.named]
  by_cases he : connectionId = ids current <;>
    simp [pending, SweepPhase.current?, -List.mem_map, he]

/-- Each call uses up a track, of this step or an earlier one. -/
theorem Inv.calls_add_owed_le (inv : Inv ids acts σ) (h : σ.step a = some τ)
    (connectionId : String) :
    ((σ.begins a).toList.map ids).count connectionId + owed ids connectionId τ ≤
      (if tracksId ids connectionId a then 1 else 0) + owed ids connectionId σ := by
  have hframe : σ.begins a = none → τ.phase = σ.phase →
      ((τ.detector.tracked connectionId).isSome → (σ.detector.tracked connectionId).isSome) →
      ((σ.begins a).toList.map ids).count connectionId + owed ids connectionId τ ≤
        (if tracksId ids connectionId a then 1 else 0) + owed ids connectionId σ := by
    intro hbegins hphase htracked
    have hle : owed ids connectionId τ ≤ owed ids connectionId σ :=
      owed_le_of_tracked hphase htracked
    rw [hbegins]
    simpa using Nat.le_add_left_of_le hle
  cases a with
  | advance duration =>
      obtain ⟨_, rfl⟩ := step_advance h
      exact hframe rfl rfl id
  | track health =>
      obtain rfl := Option.some.inj h
      by_cases hid : ids health = connectionId
      · have htracks : tracksId ids connectionId (.track health) = true := decide_eq_true hid
        rw [if_pos htracks]
        exact (Nat.zero_add _).le.trans ((owed_le_one _ _ _).trans (Nat.le_add_right _ _))
      · apply hframe rfl rfl
        rw [DeadClientDetector.tracked_track, inv.named, if_neg (Ne.symm hid)]
        exact id
  | untrack removed =>
      obtain rfl := Option.some.inj h
      apply hframe rfl rfl
      rw [DeadClientDetector.tracked_untrack]
      split
      · simp
      · exact id
  | recordSend health =>
      obtain rfl := Option.some.inj h
      exact hframe rfl rfl id
  | recordReceive health =>
      obtain rfl := Option.some.inj h
      exact hframe rfl rfl id
  | recordError health =>
      obtain rfl := Option.some.inj h
      exact hframe rfl rfl id
  | wake =>
      rw [begins_wake h]
      exact (inv.owed_wake h connectionId).trans (Nat.le_add_left _ _)
  | onDeadDone raised =>
      rw [begins_onDeadDone h]
      exact (inv.owed_onDeadDone h connectionId).trans (Nat.le_add_left _ _)

/-- In a run from a reachable state a connection is reported at most once for each time it is
tracked, and once more if a report was owed already. -/
theorem Inv.calls_run_le {before : List DetectorAction} (inv : Inv ids before σ)
    (run : Run DetectorState.step σ acts τ) (connectionId : String) :
    ((calls σ acts).map ids).count connectionId + owed ids connectionId τ ≤
      acts.countP (tracksId ids connectionId) + owed ids connectionId σ ∧
      Inv ids (before ++ acts) τ := by
  induction run with
  | nil => exact ⟨by simp [calls, trace], by simpa using inv⟩
  | snoc run h ih =>
      obtain ⟨hcalls, hinv⟩ := ih
      have hstep := hinv.calls_add_owed_le h connectionId
      refine ⟨?_, List.append_assoc _ _ _ ▸ hinv.step h⟩
      rw [calls_snoc run, List.map_append, List.count_append, List.countP_append,
        List.countP_singleton]
      omega

end Sweeps

/-! ## The sweep is exact -/

/-- What a sweep that began in `σ` has done by `τ`, and what it will have done at its end. -/
structure ExactSweep (σ : DetectorState) (acts : List DetectorAction) (τ : DetectorState) :
    Prop where
  called : calls σ acts ++ (pending τ.phase).tail = σ.due
  completes : ∀ outcomes : List Bool, outcomes.length = (pending τ.phase).length →
    ∃ υ, Run step τ (outcomes.map .onDeadDone) υ ∧ υ.phase = .sleeping
  removed : τ.phase = .sleeping → calls σ acts = σ.due ∧
    τ.detector.connections.entries =
      σ.detector.connections.entries.filter fun e => ¬ σ.Idle e.2

/-- The entries under the ids of the idle objects are the idle entries. -/
theorem Inv.filter_due {ids : Nat → String} {before : List DetectorAction} {σ : DetectorState}
    (inv : Inv ids before σ) :
    (σ.detector.connections.entries.filter fun e => e.1 ∉ σ.due.map σ.idOf) =
      σ.detector.connections.entries.filter fun e => ¬ σ.Idle e.2 := by
  apply List.filter_congr
  intro e he
  have hlookup : σ.detector.tracked e.1 = some e.2 := AList.mem_lookup_iff.mpr he
  have hid : σ.idOf e.2 = e.1 := (inv.named e.2).trans (inv.keyed e.1 e.2 hlookup)
  simp only [decide_eq_decide, not_iff_not]
  constructor
  · intro hmem
    obtain ⟨h, hdue, hh⟩ := List.mem_map.mp hmem
    obtain ⟨htracked, hidle⟩ := inv.mem_findDead hdue
    rw [← inv.named, hh] at htracked
    obtain rfl : e.2 = h := Option.some.inj (hlookup.symm.trans htracked)
    exact hidle
  · intro hidle
    refine List.mem_map.mpr ⟨e.2, List.mem_filter.mpr ⟨?_, decide_eq_true hidle⟩, hid⟩
    exact List.mem_map_of_mem he

theorem Progress.exact {ids : Nat → String} {before acts : List DetectorAction}
    {σ τ : DetectorState} {done : List Nat} (inv : Inv ids before σ)
    (progress : Progress σ acts τ done) : ExactSweep σ acts τ where
  called := by
    rw [progress.called, List.append_assoc, current?_toList_append_tail, progress.due]
  completes := fun outcomes hlength => sweep_completes outcomes τ hlength
  removed := by
    intro hsleeping
    have hdone : done = σ.due := by
      rw [← progress.due, hsleeping]
      exact (List.append_nil done).symm
    refine ⟨?_, ?_⟩
    · rw [progress.called, hsleeping, hdone]
      exact List.append_nil σ.due
    · rw [progress.entries, hdone, inv.filter_due]

/-- From every reachable state a sweep reports each idle connection once, in tracking order, and
none else, gets to its end whatever the callbacks do, and removes what it reported. Over any run
a connection that is not tracked again is reported at most once. -/
theorem sweep_exact {idleThreshold now : ℚ} {heap : Nat → ConnectionHealth}
    {before : List DetectorAction} {σ : DetectorState}
    (reached : Run step (start idleThreshold now heap) before σ) :
    (σ.due.map σ.idOf).Nodup ∧
    (∀ acts τ, Run step σ (.wake :: acts) τ → (∀ a ∈ acts, a.duringSweep) →
      ExactSweep σ (.wake :: acts) τ) ∧
    ∀ acts τ, Run step σ acts τ → ∀ connectionId,
      (∀ h, .track h ∈ acts → σ.idOf h ≠ connectionId) →
        ((calls σ acts).map σ.idOf).count connectionId ≤ 1 := by
  have inv := inv_of_run reached
  have hids : (fun h => (heap h).connectionId) = σ.idOf := funext fun h => (inv.named h).symm
  rw [hids] at inv
  refine ⟨inv.nodup_findDead, ?_, ?_⟩
  · intro acts τ run hduring
    obtain ⟨done, progress⟩ := progress_of_run run hduring
    exact progress.exact inv
  · intro acts τ run connectionId huntracked
    have hcalls := (inv.calls_run_le run connectionId).1
    have htracks : acts.countP (tracksId σ.idOf connectionId) = 0 := by
      rw [List.countP_eq_zero]
      intro a ha
      cases a with
      | track health => simpa [tracksId] using huntracked health ha
      | _ => simp [tracksId]
    have howed := owed_le_one σ.idOf connectionId σ
    omega

/-- Three clients; the last one has been active recently. -/
def fleet : Nat → ConnectionHealth
  | 0 => { connectionId := "a", lastActivityAt := 0 }
  | 1 => { connectionId := "b", lastActivityAt := 0 }
  | _ => { connectionId := "c", lastActivityAt := 90 }

/-- All three are tracked, and time passes. -/
def fleetActs : List DetectorAction := [.track 0, .track 2, .track 1, .advance 100]

/-- The first callback raises while the third client is active; the second returns. -/
def raisingActs : List DetectorAction :=
  [.recordSend 2, .onDeadDone true, .advance 5, .onDeadDone false]

theorem sweep_exact_raising :
    ∃ σ τ, Run step (start 60 0 fleet) fleetActs σ ∧ Run step σ (.wake :: raisingActs) τ ∧
      σ.due = [0, 1] ∧ ExactSweep σ (.wake :: raisingActs) τ ∧ τ.phase = .sleeping ∧
      τ.detector.connections.values = [2] := by
  have reached := run_get
    (show (exec step (start 60 0 fleet) fleetActs).isSome from by decide +kernel)
  have run := run_get (show (exec step ((exec step (start 60 0 fleet) fleetActs).get
    (by decide +kernel)) (.wake :: raisingActs)).isSome from by decide +kernel)
  refine ⟨_, _, reached, run, by decide +kernel, ?_, by decide +kernel, by decide +kernel⟩
  exact (sweep_exact reached).2.1 raisingActs _ run (by decide +kernel)

end DetectorState

end WebSocketPatterns.FaultTolerance
