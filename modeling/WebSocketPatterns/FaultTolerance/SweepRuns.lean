import WebSocketPatterns.FaultTolerance.Detector
import Mathlib.Tactic.Linarith

/-!
# What happens to a sweep's connections before their turn

Two folds over the actions say, for each connection of a sweep, what the other
tasks did since the sweep began: the last `track` or `untrack` of its id, and
the time since activity was last recorded on it. The invariant ties both to the
state, and with it what the loop does next is decided by the folds.
-/

namespace WebSocketPatterns.FaultTolerance.DetectorState

open Transition

variable (ids : Nat → String)

/-- The last `track` or `untrack` of an id since the sweep began: what it left there. -/
def lastTouch (connectionId : String) (acts : List DetectorAction) : Option (Option Nat) :=
  acts.foldl (fun touch a =>
    match a with
    | .wake => none
    | .track health => if ids health = connectionId then some (some health) else touch
    | .untrack removed => if removed = connectionId then some none else touch
    | _ => touch) none

/-- The time since activity was last recorded on an object, if it was since the sweep
began. -/
def quietFor (health : Nat) (acts : List DetectorAction) : Option ℚ :=
  acts.foldl (fun quiet a =>
    match a with
    | .wake => none
    | .recordSend active => if active = health then some 0 else quiet
    | .recordReceive active => if active = health then some 0 else quiet
    | .advance duration => quiet.map (· + duration)
    | _ => quiet) none

theorem lastTouch_snoc (connectionId : String) (acts : List DetectorAction)
    (a : DetectorAction) :
    lastTouch ids connectionId (acts ++ [a]) =
      match a with
      | .wake => none
      | .track health =>
          if ids health = connectionId then some (some health) else lastTouch ids connectionId acts
      | .untrack removed =>
          if removed = connectionId then some none else lastTouch ids connectionId acts
      | _ => lastTouch ids connectionId acts := by
  rw [lastTouch, List.foldl_append]
  cases a <;> rfl

theorem quietFor_snoc (health : Nat) (acts : List DetectorAction) (a : DetectorAction) :
    quietFor health (acts ++ [a]) =
      match a with
      | .wake => none
      | .recordSend active => if active = health then some 0 else quietFor health acts
      | .recordReceive active => if active = health then some 0 else quietFor health acts
      | .advance duration => (quietFor health acts).map (· + duration)
      | _ => quietFor health acts := by
  rw [quietFor, List.foldl_append]
  cases a <;> rfl

/-- The dead connections of the sweep whose report is not finished. -/
def pending : SweepPhase → List Nat
  | .sleeping => []
  | .reporting current rest => current :: rest

@[simp] theorem pending_reportNext (dead : List Nat) : pending (reportNext dead) = dead := by
  cases dead <;> rfl

/-- A record keeps the ids. -/
theorem modify_idOf (σ : DetectorState) (health : Nat) {f : ConnectionHealth → ConnectionHealth}
    (hid : ∀ h : ConnectionHealth, (f h).connectionId = h.connectionId) (other : Nat) :
    (σ.modify health f).idOf other = σ.idOf other := by
  by_cases he : other = health
  · subst he
    simp [idOf, DetectorState.modify, hid]
  · simp [idOf, DetectorState.modify, he]

/-- What holds between any two actions. -/
structure Inv (acts : List DetectorAction) (σ : DetectorState) : Prop where
  named : ∀ h, σ.idOf h = ids h
  keyed : ∀ connectionId h, σ.detector.tracked connectionId = some h → ids h = connectionId
  distinct : ((pending σ.phase).map ids).Nodup
  touched : ∀ h ∈ pending σ.phase, σ.detector.tracked (ids h) =
    (lastTouch ids (ids h) acts).getD (some h)
  quiet : ∀ h ∈ pending σ.phase, ∀ d ∈ quietFor h acts,
    (σ.heap h).idleSeconds σ.now = d
  idle : ∀ h ∈ pending σ.phase, quietFor h acts = none →
    σ.detector.idleThreshold < (σ.heap h).idleSeconds σ.now

theorem start_inv (idleThreshold now : ℚ) (heap : Nat → ConnectionHealth) :
    Inv (fun h => (heap h).connectionId) [] (start idleThreshold now heap) where
  named := fun _ => rfl
  keyed := by simp [start, DeadClientDetector.new, DeadClientDetector.tracked]
  distinct := List.nodup_nil
  touched := by simp [start, pending]
  quiet := by simp [start, pending]
  idle := by simp [start, pending]

section Steps

variable {ids} {acts : List DetectorAction} {σ τ : DetectorState} (inv : Inv ids acts σ)
include inv

theorem Inv.advance {duration : ℚ} (hpos : 0 ≤ duration) :
    Inv ids (acts ++ [.advance duration]) { σ with now := σ.now + duration } := by
  have hidle : ∀ h : ConnectionHealth,
      h.idleSeconds (σ.now + duration) = h.idleSeconds σ.now + duration := by
    intro h
    simp only [ConnectionHealth.idleSeconds]
    linarith
  refine ⟨inv.named, inv.keyed, inv.distinct, ?_, ?_, ?_⟩
  · intro h hp
    rw [lastTouch_snoc]
    exact inv.touched h hp
  · intro h hp d hd
    rw [quietFor_snoc] at hd
    obtain ⟨e, he, rfl⟩ := Option.map_eq_some_iff.mp hd
    rw [hidle, inv.quiet h hp e he]
  · intro h hp hnone
    rw [quietFor_snoc] at hnone
    have hold := inv.idle h hp (Option.map_eq_none_iff.mp hnone)
    rw [hidle]
    exact lt_add_of_lt_of_nonneg hold hpos

/-- A `track` or `untrack` changes what one id leads to, and is the last to do so. -/
theorem Inv.touch {a : DetectorAction} {d : DeadClientDetector} {touchedId : String}
    {left : Option Nat} (hthreshold : d.idleThreshold = σ.detector.idleThreshold)
    (htracked : ∀ connectionId, d.tracked connectionId =
      if connectionId = touchedId then left else σ.detector.tracked connectionId)
    (hleft : ∀ h ∈ left, ids h = touchedId)
    (htouch : ∀ connectionId, lastTouch ids connectionId (acts ++ [a]) =
      if touchedId = connectionId then some left else lastTouch ids connectionId acts)
    (hquiet : ∀ h, quietFor h (acts ++ [a]) = quietFor h acts) :
    Inv ids (acts ++ [a]) { σ with detector := d } := by
  refine ⟨inv.named, ?_, inv.distinct, ?_, ?_, ?_⟩
  · intro connectionId h hd
    rw [htracked] at hd
    split at hd
    · rename_i he
      exact (hleft h hd).trans he.symm
    · exact inv.keyed connectionId h hd
  · intro h hp
    rw [htouch, htracked]
    by_cases he : ids h = touchedId
    · rw [if_pos he, if_pos he.symm]
      rfl
    · rw [if_neg he, if_neg (Ne.symm he)]
      exact inv.touched h hp
  · intro h hp
    rw [hquiet]
    exact inv.quiet h hp
  · intro h hp
    rw [hquiet, hthreshold]
    exact inv.idle h hp

theorem Inv.track (health : Nat) :
    Inv ids (acts ++ [.track health])
      { σ with detector := σ.detector.track (σ.idOf health) health } := by
  refine inv.touch rfl ?_ ?_ (fun connectionId => lastTouch_snoc ids connectionId acts _)
    (fun h => quietFor_snoc h acts _)
  · intro connectionId
    rw [DeadClientDetector.tracked_track, inv.named]
  · intro h hh
    rw [Option.some.inj hh]

theorem Inv.untrack (connectionId : String) :
    Inv ids (acts ++ [.untrack connectionId])
      { σ with detector := σ.detector.untrack connectionId } :=
  inv.touch rfl (DeadClientDetector.tracked_untrack σ.detector connectionId) (by simp)
    (fun other => lastTouch_snoc ids other acts _) (fun h => quietFor_snoc h acts _)

/-- A record changes one object, and not its id. -/
theorem Inv.modify {a : DetectorAction} {health : Nat} {f : ConnectionHealth → ConnectionHealth}
    (hid : ∀ h : ConnectionHealth, (f h).connectionId = h.connectionId)
    (htouch : ∀ connectionId,
      lastTouch ids connectionId (acts ++ [a]) = lastTouch ids connectionId acts)
    (hquiet : ∀ h, (quietFor h (acts ++ [a]) = quietFor h acts ∧
        ((σ.modify health f).heap h).lastActivityAt = (σ.heap h).lastActivityAt) ∨
      (quietFor h (acts ++ [a]) = some 0 ∧
        ((σ.modify health f).heap h).lastActivityAt = σ.now)) :
    Inv ids (acts ++ [a]) (σ.modify health f) := by
  refine ⟨?_, inv.keyed, inv.distinct, ?_, ?_, ?_⟩
  · exact fun h => (modify_idOf σ health hid h).trans (inv.named h)
  · intro h hp
    rw [htouch]
    exact inv.touched h hp
  · intro h hp d hd
    rcases hquiet h with ⟨hq, hlast⟩ | ⟨hq, hlast⟩
    · rw [hq] at hd
      have hold := inv.quiet h hp d hd
      rwa [ConnectionHealth.idleSeconds, hlast]
    · obtain rfl : 0 = d := Option.some.inj (hq.symm.trans hd)
      rw [ConnectionHealth.idleSeconds, hlast]
      exact sub_self σ.now
  · intro h hp hnone
    rcases hquiet h with ⟨hq, hlast⟩ | ⟨hq, _⟩
    · have hold := inv.idle h hp (hq.symm.trans hnone)
      rwa [ConnectionHealth.idleSeconds, hlast]
    · simp [hq] at hnone

/-- Activity on one object starts its quiet time again. -/
theorem Inv.recordActivity {a : DetectorAction} {health : Nat}
    {f : ConnectionHealth → ConnectionHealth}
    (hid : ∀ h : ConnectionHealth, (f h).connectionId = h.connectionId)
    (hlast : ∀ h : ConnectionHealth, (f h).lastActivityAt = σ.now)
    (htouch : ∀ connectionId,
      lastTouch ids connectionId (acts ++ [a]) = lastTouch ids connectionId acts)
    (hquiet : ∀ h, quietFor h (acts ++ [a]) = if health = h then some 0 else quietFor h acts) :
    Inv ids (acts ++ [a]) (σ.modify health f) := by
  apply inv.modify hid htouch
  intro h
  by_cases he : health = h
  · subst he
    exact Or.inr ⟨(hquiet health).trans (if_pos rfl), by simp [DetectorState.modify, hlast]⟩
  · exact Or.inl ⟨(hquiet h).trans (if_neg he), by simp [DetectorState.modify, Ne.symm he]⟩

/-- What `find_dead` lists is idle, and tracked under its id. -/
theorem Inv.mem_findDead {h : Nat} (hmem : h ∈ σ.detector.findDead σ.heap σ.now) :
    σ.detector.tracked (ids h) = some h ∧
      σ.detector.idleThreshold < (σ.heap h).idleSeconds σ.now := by
  obtain ⟨hvalue, hidle⟩ := List.mem_filter.mp hmem
  obtain ⟨connectionId, hlookup⟩ := (Dict.mem_values_iff _ _).mp hvalue
  have htracked : σ.detector.tracked connectionId = some h := hlookup
  exact ⟨inv.keyed connectionId h htracked ▸ htracked, of_decide_eq_true hidle⟩

theorem Inv.nodup_findDead : ((σ.detector.findDead σ.heap σ.now).map ids).Nodup := by
  have hnodup : (σ.detector.connections.values.map ids).Nodup :=
    Dict.nodup_map_values inv.keyed
  exact hnodup.sublist (List.filter_sublist.map ids)

/-- The sweep begins: every dead connection is tracked under its id and idle. -/
theorem Inv.wake :
    Inv ids (acts ++ [.wake])
      { σ with phase := reportNext (σ.detector.findDead σ.heap σ.now) } := by
  refine ⟨inv.named, inv.keyed, ?_, ?_, ?_, ?_⟩
  · rw [pending_reportNext]
    exact inv.nodup_findDead
  · intro h hp
    rw [pending_reportNext] at hp
    rw [lastTouch_snoc]
    exact (inv.mem_findDead hp).1
  · intro h _ d hd
    rw [quietFor_snoc] at hd
    simp at hd
  · intro h hp _
    rw [pending_reportNext] at hp
    exact (inv.mem_findDead hp).2

/-- The loop untracks the reported id; the ids still to come are others. -/
theorem Inv.onDeadDone {current : Nat} {rest : List Nat} (raised : Bool)
    (hp : σ.phase = .reporting current rest) :
    Inv ids (acts ++ [.onDeadDone raised])
      { σ with
        detector := σ.detector.untrack (σ.idOf current)
        phase := reportNext rest } := by
  have hpending : pending σ.phase = current :: rest := by
    rw [hp]
    rfl
  have hdistinct := inv.distinct
  rw [hpending, List.map_cons, List.nodup_cons] at hdistinct
  refine ⟨inv.named, ?_, ?_, ?_, ?_, ?_⟩
  · intro connectionId h htracked
    rw [DeadClientDetector.tracked_untrack] at htracked
    split at htracked
    · simp at htracked
    · exact inv.keyed connectionId h htracked
  · rw [pending_reportNext]
    exact hdistinct.2
  · intro h hmem
    rw [pending_reportNext] at hmem
    have hne : ids h ≠ ids current := by
      intro he
      exact hdistinct.1 (he ▸ List.mem_map_of_mem hmem)
    rw [lastTouch_snoc, DeadClientDetector.tracked_untrack, inv.named, if_neg hne]
    exact inv.touched h (hpending ▸ List.mem_cons_of_mem _ hmem)
  · intro h hmem
    rw [pending_reportNext] at hmem
    rw [quietFor_snoc]
    exact inv.quiet h (hpending ▸ List.mem_cons_of_mem _ hmem)
  · intro h hmem
    rw [pending_reportNext] at hmem
    rw [quietFor_snoc]
    exact inv.idle h (hpending ▸ List.mem_cons_of_mem _ hmem)

theorem Inv.step {a : DetectorAction} (h : σ.step a = some τ) : Inv ids (acts ++ [a]) τ := by
  cases a with
  | advance duration =>
      obtain ⟨hpos, rfl⟩ := step_advance h
      exact inv.advance hpos
  | track health =>
      obtain rfl := Option.some.inj h
      exact inv.track health
  | untrack connectionId =>
      obtain rfl := Option.some.inj h
      exact inv.untrack connectionId
  | recordSend health =>
      obtain rfl := Option.some.inj h
      exact inv.recordActivity (fun _ => rfl) (fun _ => rfl)
        (fun connectionId => lastTouch_snoc ids connectionId acts (.recordSend health))
        (fun other => quietFor_snoc other acts (.recordSend health))
  | recordReceive health =>
      obtain rfl := Option.some.inj h
      exact inv.recordActivity (fun _ => rfl) (fun _ => rfl)
        (fun connectionId => lastTouch_snoc ids connectionId acts (.recordReceive health))
        (fun other => quietFor_snoc other acts (.recordReceive health))
  | recordError health =>
      obtain rfl := Option.some.inj h
      apply inv.modify
      · exact fun _ => rfl
      · exact fun connectionId => lastTouch_snoc ids connectionId acts (.recordError health)
      · intro other
        refine Or.inl ⟨quietFor_snoc other acts (.recordError health), ?_⟩
        by_cases he : other = health
        · subst he
          simp [DetectorState.modify, ConnectionHealth.recordError]
        · simp [DetectorState.modify, he]
  | wake =>
      obtain rfl := step_wake h
      exact inv.wake
  | onDeadDone raised =>
      obtain ⟨current, rest, hp, rfl⟩ := step_onDeadDone h
      exact inv.onDeadDone raised hp

end Steps

theorem inv_of_run {idleThreshold now : ℚ} {heap : Nat → ConnectionHealth}
    {acts : List DetectorAction} {σ : DetectorState}
    (run : Run step (start idleThreshold now heap) acts σ) :
    Inv (fun h => (heap h).connectionId) acts σ :=
  run.invariant (start_inv idleThreshold now heap) fun _ _ _ _ inv h => inv.step h

end WebSocketPatterns.FaultTolerance.DetectorState
