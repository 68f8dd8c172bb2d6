import WebSocketPatterns.Shutdown.Registry
import WebSocketPatterns.Transition.Run

/-!
# Closing all connections while handlers come and go

An action is one synchronous step of a handler, the end of a task, or a step of
the one `close_all` in progress. `asyncio.wait` may return at any time with the
tasks that are not done as pending, since its timeout may expire at any time;
`gather` returns once all its tasks are done. Connection ids are never used
twice. The fields after `progress` record the run and are read by no code.
-/

namespace WebSocketPatterns.Shutdown

open Transition

/-- How a task ended. -/
inductive TaskOutcome
  | returned
  | cancelled
  | raised
deriving DecidableEq

/-- The registry, the tasks that are done, and the `close_all` in progress, with the record
of the current or last `close_all` (what was registered when it was called, what it
cancelled, what it removed) and of all runs of it (the connections not deregistered since
they were registered, the tasks ever asked to stop). -/
structure ShutdownState where
  registry : ConnectionRegistry
  outcome : Nat → Option TaskOutcome
  progress : CloseProgress
  usedIds : List String
  atCall : List ConnectionInfo
  cancelled : List Nat
  removed : List ConnectionInfo
  owed : List ConnectionInfo
  askedToStop : List Nat

/-- Steps of the handlers, of the tasks, and of `close_all`. -/
inductive ShutdownAction
  | register (info : ConnectionInfo)
  | deregister (connectionId : String)
  | finish (task : Nat) (outcome : TaskOutcome)
  | closeAll
  | waitReturns
  | gatherReturns
deriving DecidableEq

namespace ShutdownState

/-- An empty registry; no `close_all` is in progress. -/
def start : ShutdownState where
  registry := ConnectionRegistry.new
  outcome := fun _ => none
  progress := .returned 0
  usedIds := []
  atCall := []
  cancelled := []
  removed := []
  owed := []
  askedToStop := []

/-- `close_all` has run to its next suspension or its return. -/
def resume (σ : ShutdownState) (result : CloseStep) : ShutdownState :=
  { σ with
    registry := result.registry
    progress := result.progress
    cancelled := σ.cancelled ++ result.cancels
    removed := σ.removed ++ σ.registry.connections.values.filter fun info =>
      decide (result.registry.get info.connectionId ≠ some info)
    askedToStop := σ.askedToStop ++ result.cancels }

/-- `task.done()`. -/
def isDone (σ : ShutdownState) (task : Nat) : Bool := (σ.outcome task).isSome

/-- One action; `none` when it is not possible. -/
def step (σ : ShutdownState) : ShutdownAction → Option ShutdownState
  | .register info =>
      if info.connectionId ∈ σ.usedIds then none
      else
        some { σ with
          registry := σ.registry.register info
          usedIds := info.connectionId :: σ.usedIds
          owed := σ.owed ++ [info] }
  | .deregister connectionId =>
      some { σ with
        registry := σ.registry.deregister connectionId
        owed := σ.owed.filter fun info => decide (info.connectionId ≠ connectionId) }
  | .finish task outcome =>
      if σ.isDone task then none
      else some { σ with outcome := Function.update σ.outcome task (some outcome) }
  | .closeAll =>
      match σ.progress with
      | .returned _ =>
          some <| resume
            { σ with atCall := σ.registry.connections.values, cancelled := [], removed := [] }
            σ.registry.closeAll
      | _ => none
  | .waitReturns =>
      match σ.progress with
      | .waiting count tasks =>
          some <| σ.resume <|
            σ.registry.waitReturned count (tasks.dedup.filter fun task => !σ.isDone task)
      | _ => none
  | .gatherReturns =>
      match σ.progress with
      | .gathering count pending =>
          if pending.all σ.isDone then some (σ.resume (σ.registry.gatherReturned count)) else none
      | _ => none

/-- No handler is forgotten: what the current or last `close_all` removed it had cancelled,
and a connection that was not deregistered is registered or was asked to stop. -/
def ForgetsNone (σ : ShutdownState) : Prop :=
  (∀ info ∈ σ.removed, info.task ∈ σ.cancelled) ∧
    ∀ info ∈ σ.owed,
      info.task ∈ σ.askedToStop ∨ σ.registry.get info.connectionId = some info

/-- The connections registered since the last call of `close_all` and not deregistered
since. -/
def late (acts : List ShutdownAction) : List ConnectionInfo :=
  acts.foldl (fun infos a =>
    match a with
    | .register info => infos ++ [info]
    | .deregister connectionId =>
        infos.filter fun info => decide (info.connectionId ≠ connectionId)
    | .closeAll => []
    | _ => infos) []

/-- `close_all` goes on with nothing left to wait for. -/
def clears (σ : ShutdownState) : ShutdownAction → Bool
  | .waitReturns =>
      match σ.progress with
      | .waiting _ tasks => tasks.all σ.isDone
      | _ => false
  | .gatherReturns => true
  | _ => false

/-- When `close_all` goes on to its end, a connection registered since its call has been
deregistered again, unless its task also runs a connection registered at the call. -/
def LateHaveLeft (acts : List ShutdownAction) (σ : ShutdownState) (a : ShutdownAction) : Prop :=
  σ.clears a = true → ∀ info ∈ late acts, ∃ called ∈ σ.atCall, called.task = info.task

instance (acts : List ShutdownAction) (σ : ShutdownState) (a : ShutdownAction) :
    Decidable (LateHaveLeft acts σ a) :=
  inferInstanceAs (Decidable (_ → _))

theorem late_snoc (acts : List ShutdownAction) (a : ShutdownAction) :
    late (acts ++ [a]) =
      match a with
      | .register info => late acts ++ [info]
      | .deregister connectionId =>
          (late acts).filter fun info => decide (info.connectionId ≠ connectionId)
      | .closeAll => []
      | _ => late acts := by
  rw [late, List.foldl_append]
  cases a <;> rfl

/-- What holds between any two actions; the last three concern the `close_all` in progress. -/
structure Inv (acts : List ShutdownAction) (σ : ShutdownState) : Prop where
  keyed : ∀ connectionId info,
    σ.registry.get connectionId = some info → info.connectionId = connectionId
  used : ∀ connectionId info,
    σ.registry.get connectionId = some info → connectionId ∈ σ.usedIds
  usedOwed : ∀ info ∈ σ.owed, info.connectionId ∈ σ.usedIds
  usedLate : ∀ info ∈ late acts, info.connectionId ∈ σ.usedIds
  asked : ∀ task ∈ σ.cancelled, task ∈ σ.askedToStop
  listed : ∀ connectionId info, (∀ n, σ.progress ≠ .returned n) →
    σ.registry.get connectionId = some info → info ∈ σ.atCall ∨ info ∈ late acts
  lateListed : ∀ info ∈ late acts, (∀ n, σ.progress ≠ .returned n) →
    σ.registry.get info.connectionId = some info
  called : ∀ task, (∀ n, σ.progress ≠ .returned n) →
    (task ∈ σ.cancelled ↔ ∃ info ∈ σ.atCall, info.task = task)
  waitingFor : ∀ count tasks, σ.progress = .waiting count tasks → ∀ task ∈ tasks,
    task ∈ σ.cancelled

theorem start_inv : Inv [] start where
  keyed := by simp [start]
  used := by simp [start]
  usedOwed := by simp [start]
  usedLate := by simp [late]
  asked := by simp [start]
  listed := by simp [start]
  lateListed := by simp [late]
  called := by simp [start]
  waitingFor := by simp [start]

section Inversion

variable {σ τ : ShutdownState}

theorem step_register {info : ConnectionInfo} (h : σ.step (.register info) = some τ) :
    info.connectionId ∉ σ.usedIds ∧
      τ = { σ with
        registry := σ.registry.register info
        usedIds := info.connectionId :: σ.usedIds
        owed := σ.owed ++ [info] } := by
  simp only [ShutdownState.step] at h
  split at h
  · simp at h
  · rename_i hnew
    exact ⟨hnew, (Option.some.inj h).symm⟩

theorem step_finish {task : Nat} {outcome : TaskOutcome}
    (h : σ.step (.finish task outcome) = some τ) :
    τ = { σ with outcome := Function.update σ.outcome task (some outcome) } := by
  simp only [ShutdownState.step] at h
  split at h
  · simp at h
  · exact (Option.some.inj h).symm

theorem step_closeAll (h : σ.step .closeAll = some τ) :
    τ = resume { σ with
      atCall := σ.registry.connections.values, cancelled := [], removed := [] }
      σ.registry.closeAll := by
  simp only [ShutdownState.step] at h
  split at h
  · exact (Option.some.inj h).symm
  · simp at h

/-- When the wait is over, `close_all` clears the registry if every task it waited for is
done, and otherwise cancels those that are not, all of them tasks it waited for. -/
theorem step_waitReturns (h : σ.step .waitReturns = some τ) :
    ∃ count tasks, σ.progress = .waiting count tasks ∧
      ((σ.clears .waitReturns = true ∧ τ = σ.resume (σ.registry.finishClose count)) ∨
        (σ.clears .waitReturns = false ∧ ∃ pending, (∀ task ∈ pending, task ∈ tasks) ∧
          τ = σ.resume ⟨σ.registry, pending, .gathering count pending⟩)) := by
  simp only [ShutdownState.step] at h
  split at h
  · rename_i count tasks hp
    refine ⟨count, tasks, hp, ?_⟩
    have hclears : σ.clears .waitReturns =
        (tasks.dedup.filter fun task => !σ.isDone task).isEmpty := by
      rw [Bool.eq_iff_iff]
      simp [clears, hp, List.filter_eq_nil_iff]
    rw [hclears]
    rw [ConnectionRegistry.waitReturned] at h
    split at h
    · rename_i hempty
      exact Or.inl ⟨hempty, (Option.some.inj h).symm⟩
    · rename_i hpending
      refine Or.inr ⟨Bool.eq_false_iff.mpr hpending, _, ?_, (Option.some.inj h).symm⟩
      intro task hmem
      exact List.mem_dedup.mp (List.mem_filter.mp hmem).1
  · simp at h

theorem step_gatherReturns (h : σ.step .gatherReturns = some τ) :
    ∃ count pending, σ.progress = .gathering count pending ∧
      τ = σ.resume (σ.registry.finishClose count) := by
  simp only [ShutdownState.step] at h
  split at h
  · rename_i count pending hp
    split at h
    · exact ⟨count, pending, hp, (Option.some.inj h).symm⟩
    · simp at h
  · simp at h

end Inversion

theorem deregister_forgetsNone {σ : ShutdownState} (hforget : σ.ForgetsNone)
    (connectionId : String) :
    ForgetsNone { σ with
      registry := σ.registry.deregister connectionId
      owed := σ.owed.filter fun info => decide (info.connectionId ≠ connectionId) } := by
  refine ⟨hforget.1, ?_⟩
  intro other howed
  obtain ⟨howed, hne⟩ := List.mem_filter.mp howed
  change _ ∨ (σ.registry.deregister connectionId).get other.connectionId = some other
  rw [ConnectionRegistry.get_deregister, if_neg (of_decide_eq_true hne)]
  exact hforget.2 other howed

/-- A step of `close_all` that removes no connection forgets none. -/
theorem resume_forgetsNone {σ : ShutdownState} (hforget : σ.ForgetsNone) {result : CloseStep}
    (hvalues : ∀ info ∈ σ.registry.connections.values,
      σ.registry.get info.connectionId = some info)
    (hget : ∀ k, result.registry.get k = σ.registry.get k) :
    (σ.resume result).ForgetsNone := by
  constructor
  · intro info hmem
    refine List.mem_append_left _ (hforget.1 info ?_)
    rcases List.mem_append.mp hmem with hmem | hmem
    · exact hmem
    · obtain ⟨hvalue, hgone⟩ := List.mem_filter.mp hmem
      rw [hget] at hgone
      exact absurd (hvalues info hvalue) (of_decide_eq_true hgone)
  · intro info howed
    change info.task ∈ σ.askedToStop ++ _ ∨ result.registry.get info.connectionId = some info
    rw [hget]
    exact (hforget.2 info howed).imp_left (List.mem_append_left _)

section Steps

variable {acts : List ShutdownAction} {σ τ : ShutdownState} {a : ShutdownAction}
  (inv : Inv acts σ)
include inv

/-- The registered connections, read as values. -/
theorem Inv.mem_values_iff (info : ConnectionInfo) :
    info ∈ σ.registry.connections.values ↔ σ.registry.get info.connectionId = some info := by
  rw [ConnectionRegistry.mem_values_iff]
  constructor
  · rintro ⟨connectionId, h⟩
    rw [inv.keyed connectionId info h]
    exact h
  · intro h
    exact ⟨_, h⟩

theorem Inv.register {info : ConnectionInfo} (hnew : info.connectionId ∉ σ.usedIds) :
    Inv (acts ++ [.register info])
      { σ with
        registry := σ.registry.register info
        usedIds := info.connectionId :: σ.usedIds
        owed := σ.owed ++ [info] } := by
  have hlate : late (acts ++ [.register info]) = late acts ++ [info] :=
    late_snoc acts (.register info)
  constructor
  case keyed =>
    intro connectionId other h
    rw [ConnectionRegistry.get_register] at h
    split at h
    · rename_i he
      exact (Option.some.inj h) ▸ he.symm
    · exact inv.keyed connectionId other h
  case used =>
    intro connectionId other h
    rw [ConnectionRegistry.get_register] at h
    split at h
    · rename_i he
      exact he ▸ List.mem_cons_self
    · exact List.mem_cons_of_mem _ (inv.used connectionId other h)
  case usedOwed =>
    intro other h
    rcases List.mem_append.mp h with h | h
    · exact List.mem_cons_of_mem _ (inv.usedOwed other h)
    · obtain rfl := List.mem_singleton.mp h
      exact List.mem_cons_self
  case usedLate =>
    intro other h
    rw [hlate] at h
    rcases List.mem_append.mp h with h | h
    · exact List.mem_cons_of_mem _ (inv.usedLate other h)
    · obtain rfl := List.mem_singleton.mp h
      exact List.mem_cons_self
  case asked => exact inv.asked
  case listed =>
    intro connectionId other hprogress h
    rw [hlate]
    rw [ConnectionRegistry.get_register] at h
    split at h
    · obtain rfl := Option.some.inj h
      exact Or.inr (List.mem_append_right _ (List.mem_singleton.mpr rfl))
    · rcases inv.listed connectionId other hprogress h with h | h
      · exact Or.inl h
      · exact Or.inr (List.mem_append_left _ h)
  case lateListed =>
    intro other h hprogress
    rw [hlate] at h
    rw [ConnectionRegistry.get_register]
    rcases List.mem_append.mp h with h | h
    · have hne : other.connectionId ≠ info.connectionId := by
        intro he
        exact hnew (he ▸ inv.usedLate other h)
      rw [if_neg hne]
      exact inv.lateListed other h hprogress
    · obtain rfl := List.mem_singleton.mp h
      exact if_pos rfl
  case called => exact inv.called
  case waitingFor => exact inv.waitingFor

theorem Inv.deregister (connectionId : String) :
    Inv (acts ++ [.deregister connectionId])
      { σ with
        registry := σ.registry.deregister connectionId
        owed := σ.owed.filter fun info => decide (info.connectionId ≠ connectionId) } := by
  have hlate : late (acts ++ [.deregister connectionId]) =
      (late acts).filter fun info => decide (info.connectionId ≠ connectionId) :=
    late_snoc acts (.deregister connectionId)
  have hget : ∀ k info, (σ.registry.deregister connectionId).get k = some info →
      k ≠ connectionId ∧ σ.registry.get k = some info := by
    intro k info h
    rw [ConnectionRegistry.get_deregister] at h
    split at h
    · simp at h
    · rename_i hne
      exact ⟨hne, h⟩
  constructor
  case keyed =>
    intro k info h
    exact inv.keyed k info (hget k info h).2
  case used =>
    intro k info h
    exact inv.used k info (hget k info h).2
  case usedOwed =>
    intro info h
    exact inv.usedOwed info (List.mem_filter.mp h).1
  case usedLate =>
    intro info h
    rw [hlate] at h
    exact inv.usedLate info (List.mem_filter.mp h).1
  case asked => exact inv.asked
  case listed =>
    intro k info hprogress h
    obtain ⟨hne, hold⟩ := hget k info h
    rw [hlate, List.mem_filter]
    rcases inv.listed k info hprogress hold with hcall | hl
    · exact Or.inl hcall
    · refine Or.inr ⟨hl, ?_⟩
      rw [inv.keyed k info hold]
      exact decide_eq_true hne
  case lateListed =>
    intro info h hprogress
    rw [hlate, List.mem_filter] at h
    rw [ConnectionRegistry.get_deregister, if_neg (of_decide_eq_true h.2)]
    exact inv.lateListed info h.1 hprogress
  case called => exact inv.called
  case waitingFor => exact inv.waitingFor

/-- Steps that touch neither the registry nor `close_all`. -/
theorem Inv.finish (task : Nat) (result : TaskOutcome) :
    Inv (acts ++ [.finish task result])
      { σ with outcome := Function.update σ.outcome task (some result) } := by
  have hlate : late (acts ++ [.finish task result]) = late acts :=
    late_snoc acts (.finish task result)
  exact
    { keyed := inv.keyed
      used := inv.used
      usedOwed := inv.usedOwed
      usedLate := hlate ▸ inv.usedLate
      asked := inv.asked
      listed := hlate ▸ inv.listed
      lateListed := hlate ▸ inv.lateListed
      called := inv.called
      waitingFor := inv.waitingFor }

/-- `close_all` starts: it cancels every registered task and removes nothing. -/
theorem Inv.closeAll :
    Inv (acts ++ [.closeAll])
      (resume { σ with atCall := σ.registry.connections.values, cancelled := [], removed := [] }
        σ.registry.closeAll) := by
  have hcancels := σ.registry.closeAll_spec.2
  have hlate : late (acts ++ [.closeAll]) = [] := late_snoc acts .closeAll
  have hget := σ.registry.get_closeAll
  constructor
  case keyed =>
    intro k info h
    exact inv.keyed k info ((hget k).symm.trans h)
  case used =>
    intro k info h
    exact inv.used k info ((hget k).symm.trans h)
  case usedOwed => exact inv.usedOwed
  case usedLate => simp [hlate]
  case asked =>
    intro task h
    exact List.mem_append_right _ (by simpa [resume] using h)
  case listed =>
    intro k info _ h
    have hold : σ.registry.get k = some info := (hget k).symm.trans h
    refine Or.inl ((inv.mem_values_iff info).mpr ?_)
    rw [inv.keyed k info hold]
    exact hold
  case lateListed => simp [hlate]
  case called =>
    intro task _
    simp [resume, hcancels, List.mem_map]
  case waitingFor =>
    intro count tasks h task ht
    have htasks : tasks = σ.registry.closeAll.cancels := by
      simp only [resume, ConnectionRegistry.closeAll] at h ⊢
      split at h
      · simp at h
      · rename_i hcount
        rw [if_neg hcount]
        split at h
        · simp [ConnectionRegistry.finishClose] at h
        · rename_i htasks
          rw [if_neg htasks]
          exact (CloseProgress.waiting.inj h).2.symm
    simpa [resume, htasks] using ht

/-- `close_all` waits on: a second cancel goes to tasks that had one before. -/
theorem Inv.cancelPending {act : ShutdownAction} (hact : late (acts ++ [act]) = late acts)
    (count : Nat) {pending : List Nat} (hprogress : ∀ n, σ.progress ≠ .returned n)
    (hpending : ∀ task ∈ pending, task ∈ σ.cancelled) :
    Inv (acts ++ [act]) (σ.resume ⟨σ.registry, pending, .gathering count pending⟩) where
  keyed := inv.keyed
  used := inv.used
  usedOwed := inv.usedOwed
  usedLate := hact ▸ inv.usedLate
  asked := by
    intro task h
    rcases List.mem_append.mp h with h | h
    · exact List.mem_append_left _ (inv.asked task h)
    · exact List.mem_append_right _ h
  listed := by
    intro k info _ h
    exact hact ▸ inv.listed k info hprogress h
  lateListed := by
    intro info h _
    exact inv.lateListed info (hact ▸ h) hprogress
  called := by
    intro task _
    refine Iff.trans ?_ (inv.called task hprogress)
    simp only [resume, List.mem_append, or_iff_left_iff_imp]
    exact hpending task
  waitingFor := by simp [resume]

/-- `close_all` ends with an empty registry. -/
theorem Inv.finishClose {act : ShutdownAction} (hact : late (acts ++ [act]) = late acts)
    (count : Nat) : Inv (acts ++ [act]) (σ.resume (σ.registry.finishClose count)) where
  keyed := by simp [resume]
  used := by simp [resume]
  usedOwed := inv.usedOwed
  usedLate := hact ▸ inv.usedLate
  asked := by
    intro task h
    exact List.mem_append_left _ (inv.asked task (by simpa [resume,
      ConnectionRegistry.finishClose] using h))
  listed := by simp [resume, ConnectionRegistry.finishClose]
  lateListed := by
    intro info _ h
    exact absurd rfl (h count)
  called := by
    intro task h
    exact absurd rfl (h count)
  waitingFor := by simp [resume, ConnectionRegistry.finishClose]

theorem Inv.step (h : σ.step a = some τ) : Inv (acts ++ [a]) τ := by
  cases a with
  | register info =>
      obtain ⟨hnew, rfl⟩ := step_register h
      exact inv.register hnew
  | deregister connectionId =>
      obtain rfl := Option.some.inj h
      exact inv.deregister connectionId
  | finish task outcome =>
      obtain rfl := step_finish h
      exact inv.finish task outcome
  | closeAll =>
      obtain rfl := step_closeAll h
      exact inv.closeAll
  | waitReturns =>
      have hlate := late_snoc acts .waitReturns
      obtain ⟨count, tasks, hp, ⟨_, rfl⟩ | ⟨_, pending, hpending, rfl⟩⟩ := step_waitReturns h
      · exact inv.finishClose hlate count
      · apply inv.cancelPending hlate count
        · simp [hp]
        · intro task hmem
          exact inv.waitingFor count tasks hp task (hpending task hmem)
  | gatherReturns =>
      obtain ⟨count, _, _, rfl⟩ := step_gatherReturns h
      exact inv.finishClose (late_snoc acts .gatherReturns) count

/-- Clearing the registry forgets no handler exactly when the late connections have left. -/
theorem Inv.finishClose_forgetsNone_iff (hforget : σ.ForgetsNone) (count : Nat)
    (hprogress : ∀ n, σ.progress ≠ .returned n) :
    (σ.resume (σ.registry.finishClose count)).ForgetsNone ↔
      ∀ info ∈ late acts, ∃ called ∈ σ.atCall, called.task = info.task := by
  have hremoved : (σ.resume (σ.registry.finishClose count)).removed =
      σ.removed ++ σ.registry.connections.values := by
    simp [resume]
  have hcancelled : (σ.resume (σ.registry.finishClose count)).cancelled = σ.cancelled := by
    simp [resume, ConnectionRegistry.finishClose]
  have hasked : (σ.resume (σ.registry.finishClose count)).askedToStop = σ.askedToStop := by
    simp [resume, ConnectionRegistry.finishClose]
  constructor
  · intro h info hl
    have hget := inv.lateListed info hl hprogress
    have hmem : info ∈ σ.removed ++ σ.registry.connections.values :=
      List.mem_append_right _ ((inv.mem_values_iff info).mpr hget)
    have htask := h.1 info (hremoved ▸ hmem)
    rw [hcancelled] at htask
    exact (inv.called info.task hprogress).mp htask
  · intro hl
    have hvalues : ∀ info ∈ σ.registry.connections.values, info.task ∈ σ.cancelled := by
      intro info hmem
      apply (inv.called info.task hprogress).mpr
      have hget := (inv.mem_values_iff info).mp hmem
      rcases inv.listed info.connectionId info hprogress hget with hcall | hlate
      · exact ⟨info, hcall, rfl⟩
      · exact hl info hlate
    constructor
    · intro info hmem
      rw [hcancelled]
      rw [hremoved] at hmem
      rcases List.mem_append.mp hmem with hmem | hmem
      · exact hforget.1 info hmem
      · exact hvalues info hmem
    · intro info howed
      rw [hasked]
      refine Or.inl ?_
      rcases hforget.2 info howed with hstop | hget
      · exact hstop
      · exact inv.asked _ (hvalues info ((inv.mem_values_iff info).mpr hget))

theorem Inv.register_forgetsNone (hforget : σ.ForgetsNone) {info : ConnectionInfo}
    (hnew : info.connectionId ∉ σ.usedIds) :
    ForgetsNone { σ with
      registry := σ.registry.register info
      usedIds := info.connectionId :: σ.usedIds
      owed := σ.owed ++ [info] } := by
  refine ⟨hforget.1, ?_⟩
  intro other howed
  change _ ∨ (σ.registry.register info).get other.connectionId = some other
  rw [ConnectionRegistry.get_register]
  rcases List.mem_append.mp howed with howed | howed
  · have hne : other.connectionId ≠ info.connectionId := by
      intro he
      exact hnew (he ▸ inv.usedOwed other howed)
    rw [if_neg hne]
    exact hforget.2 other howed
  · obtain rfl := List.mem_singleton.mp howed
    exact Or.inr (if_pos rfl)

/-- From a state in which no handler is forgotten, a step forgets none exactly when it meets
the condition on late connections. -/
theorem Inv.step_forgetsNone_iff (hforget : σ.ForgetsNone) (h : σ.step a = some τ) :
    τ.ForgetsNone ↔ LateHaveLeft acts σ a := by
  have hvalues : ∀ info ∈ σ.registry.connections.values,
      σ.registry.get info.connectionId = some info :=
    fun info => (inv.mem_values_iff info).mp
  cases a with
  | register info =>
      obtain ⟨hnew, rfl⟩ := step_register h
      apply iff_of_true
      · exact inv.register_forgetsNone hforget hnew
      · simp [LateHaveLeft, clears]
  | deregister connectionId =>
      obtain rfl := Option.some.inj h
      apply iff_of_true
      · exact deregister_forgetsNone hforget connectionId
      · simp [LateHaveLeft, clears]
  | finish task outcome =>
      obtain rfl := step_finish h
      exact iff_of_true hforget (by simp [LateHaveLeft, clears])
  | closeAll =>
      obtain rfl := step_closeAll h
      refine iff_of_true ?_ (by simp [LateHaveLeft, clears])
      apply resume_forgetsNone
      · exact ⟨by simp, hforget.2⟩
      · exact hvalues
      · exact σ.registry.get_closeAll
  | waitReturns =>
      obtain ⟨count, tasks, hp, ⟨hclears, rfl⟩ | ⟨hclears, pending, _, rfl⟩⟩ :=
        step_waitReturns h
      · rw [inv.finishClose_forgetsNone_iff hforget count (by simp [hp])]
        simp [LateHaveLeft, hclears]
      · apply iff_of_true
        · exact resume_forgetsNone hforget hvalues fun _ => rfl
        · simp [LateHaveLeft, hclears]
  | gatherReturns =>
      obtain ⟨count, pending, hp, rfl⟩ := step_gatherReturns h
      rw [inv.finishClose_forgetsNone_iff hforget count (by simp [hp])]
      simp [LateHaveLeft, clears]

end Steps

theorem inv_of_run {acts : List ShutdownAction} {σ : ShutdownState}
    (run : Run step start acts σ) : Inv acts σ :=
  run.invariant start_inv fun _ _ _ _ inv h => inv.step h

/-- In every state of a run no handler is forgotten if and only if, whenever `close_all` goes
on to clear the registry, the connections registered since its call have left. -/
theorem forgets_none_iff {acts : List ShutdownAction} {σ : ShutdownState}
    (run : Run step start acts σ) :
    Throughout step start (fun _ σ => σ.ForgetsNone) acts ↔
      EachStep step start LateHaveLeft acts := by
  apply throughout_iff_eachStep ?_ ?_ run
  · exact ⟨by simp [start], by simp [start]⟩
  · intro _ _ _ _ run hforget h
    exact (inv_of_run run).step_forgetsNone_iff hforget h

/-- A late connection leaves before the wait ends; the one waited for stops at its second
cancel. -/
def leaveActs : List ShutdownAction :=
  [.register ⟨"a", "u1", 0, 0⟩, .closeAll, .register ⟨"b", "u2", 1, 1⟩, .waitReturns,
    .deregister "b", .finish 0 .cancelled, .gatherReturns]

theorem forgets_none_leave :
    Throughout step start (fun _ σ => σ.ForgetsNone) leaveActs := by
  have run := run_get (show (exec step start leaveActs).isSome from by decide)
  apply (forgets_none_iff run).mpr
  decide

/-- A connection registers while `close_all` waits, and is still there when it goes on. -/
def stayActs : List ShutdownAction :=
  [.register ⟨"a", "u1", 0, 0⟩, .closeAll, .register ⟨"b", "u2", 1, 1⟩, .finish 0 .cancelled,
    .waitReturns]

/-- Its handler runs on, was never asked to stop, and is no longer registered. -/
theorem late_handler_forgotten :
    ∃ σ, Run step start stayActs σ ∧ σ.progress = .returned 1 ∧
      ⟨"b", "u2", 1, 1⟩ ∈ σ.removed ∧ 1 ∉ σ.askedToStop ∧ σ.isDone 1 = false ∧
      σ.registry.get "b" = none ∧ ¬ σ.ForgetsNone := by
  refine ⟨_, run_get (by decide), by decide, by decide, by decide, by decide, by decide, ?_⟩
  intro hforget
  have htask := hforget.1 ⟨"b", "u2", 1, 1⟩ (by decide)
  exact absurd htask (by decide)

end ShutdownState

end WebSocketPatterns.Shutdown
