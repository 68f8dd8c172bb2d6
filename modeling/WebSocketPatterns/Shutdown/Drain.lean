import WebSocketPatterns.Shutdown.CloseAll

/-!
# What a `close_all` that returns has done

The state in which `close_all` is called is arbitrary, and so is what the
handlers do while it is suspended, except that none of them registers. How a
task ends is up to the task: it may return, be cancelled, or raise, on either
cancel or by itself. `asyncio.wait` raises no exception of its tasks, and
`gather` is told to return them.
-/

namespace WebSocketPatterns.Shutdown

open Transition

/-- `asyncio.gather(*tasks, return_exceptions=...)` when all tasks are done: their outcomes, or
the first that is an exception. -/
def gather (returnExceptions : Bool) (outcomes : List TaskOutcome) :
    Except TaskOutcome (List TaskOutcome) :=
  if returnExceptions then .ok outcomes
  else
    match outcomes.find? fun outcome => decide (outcome ≠ .returned) with
    | some exception => .error exception
    | none => .ok outcomes

/-- The end of `close_all` after `await asyncio.gather(*pending, return_exceptions=True)`. -/
def ConnectionRegistry.awaitGather (r : ConnectionRegistry) (count : Nat)
    (outcomes : List TaskOutcome) : Except TaskOutcome CloseStep :=
  (gather true outcomes).map fun _ => r.gatherReturned count

/-- Whatever the outcomes, the drain goes on to its end. -/
theorem ConnectionRegistry.awaitGather_eq (r : ConnectionRegistry) (count : Nat)
    (outcomes : List TaskOutcome) : r.awaitGather count outcomes = .ok (r.gatherReturned count) :=
  rfl

namespace ShutdownState

/-- The tasks of the registered connections. -/
def tasks (σ : ShutdownState) : List Nat :=
  σ.registry.connections.values.map ConnectionInfo.task

/-- The handlers' own steps: all but a registration and a call of `close_all`. -/
def Handlers (acts : List ShutdownAction) : Prop :=
  ∀ a ∈ acts, a ≠ .closeAll ∧ ∀ info, a ≠ .register info

/-- The second cancels went exactly to the tasks that were not done when the wait was over,
on top of the first ones. -/
def CancelledTwice (tasks : List Nat) (called : ShutdownState) (acts : List ShutdownAction)
    (σ : ShutdownState) : Prop :=
  ∃ before after ω, acts = before ++ .waitReturns :: after ∧ Run step called before ω ∧
    ∀ task, σ.cancelled.count task =
      tasks.count task + if task ∈ tasks ∧ ω.isDone task = false then 1 else 0

/-- Where a drain of these tasks stands, which was begun in the given state. -/
inductive Draining (tasks : List Nat) (count : Nat) (called : ShutdownState)
    (acts : List ShutdownAction) (σ : ShutdownState) : Prop
  | waiting (progress : σ.progress = .waiting count tasks) (cancelled : σ.cancelled = tasks)
  | gathering (pending : List Nat) (progress : σ.progress = .gathering count pending)
      (second : CancelledTwice tasks called acts σ)
      (covered : ∀ task ∈ tasks, task ∈ pending ∨ σ.isDone task = true)
  | returned (progress : σ.progress = .returned count)
      (second : CancelledTwice tasks called acts σ)
      (done : ∀ task ∈ tasks, σ.isDone task = true) (empty : σ.registry.activeCount = 0)

/-- A call on a registry with connections cancels all their tasks and waits for them. -/
theorem draining_of_closeAll {σ called : ShutdownState} (hsome : σ.registry.activeCount ≠ 0)
    (h : σ.step .closeAll = some called) :
    Draining σ.tasks σ.registry.activeCount called [] called ∧
      called.registry.isShuttingDown = true := by
  obtain rfl := step_closeAll h
  have hvalues : σ.registry.connections.values ≠ [] := by
    intro he
    apply hsome
    simpa [Dict.values, Dict.len, ConnectionRegistry.activeCount] using congrArg List.length he
  have hclose : σ.registry.closeAll =
      { registry := { σ.registry with shuttingDown := true }
        cancels := σ.tasks
        progress := .waiting σ.registry.activeCount σ.tasks } := by
    have hsome' : σ.registry.connections.len ≠ 0 := hsome
    simp [ConnectionRegistry.closeAll, hsome', hvalues, tasks, ConnectionRegistry.activeCount]
  rw [hclose]
  exact ⟨.waiting rfl rfl, rfl⟩

section Steps

variable {tasks : List Nat} {count : Nat} {called σ τ : ShutdownState}
  {acts : List ShutdownAction} {a : ShutdownAction}

/-- What was cancelled before is not forgotten in a longer run. -/
theorem CancelledTwice.snoc (h : CancelledTwice tasks called acts σ)
    (hcancelled : τ.cancelled = σ.cancelled) : CancelledTwice tasks called (acts ++ [a]) τ := by
  obtain ⟨before, after, ω, rfl, run, hcount⟩ := h
  refine ⟨before, after ++ [a], ω, ?_, run, ?_⟩
  · rw [List.append_assoc, List.cons_append]
  · rw [hcancelled]
    exact hcount

/-- A step of a handler or a task keeps the drain where it is. -/
theorem Draining.handler (h : Draining tasks count called acts σ)
    (hprogress : τ.progress = σ.progress) (hcancelled : τ.cancelled = σ.cancelled)
    (hdone : ∀ task, σ.isDone task = true → τ.isDone task = true)
    (hempty : σ.registry.activeCount = 0 → τ.registry.activeCount = 0) :
    Draining tasks count called (acts ++ [a]) τ := by
  cases h with
  | waiting progress cancelled =>
      exact .waiting (hprogress.trans progress) (hcancelled.trans cancelled)
  | gathering pending progress second covered =>
      refine .gathering pending (hprogress.trans progress) (second.snoc hcancelled) ?_
      intro task hmem
      exact (covered task hmem).imp_right (hdone task)
  | returned progress second done empty =>
      refine .returned (hprogress.trans progress) (second.snoc hcancelled) ?_ (hempty empty)
      intro task hmem
      exact hdone task (done task hmem)

/-- The wait is over: what is not done is cancelled a second time and gathered. -/
theorem Draining.waitReturns (h : Draining tasks count called acts σ)
    (run : Run step called acts σ) (hstep : σ.step .waitReturns = some τ) :
    Draining tasks count called (acts ++ [.waitReturns]) τ := by
  cases h with
  | gathering _ progress _ _ => simp [ShutdownState.step, progress] at hstep
  | returned progress _ _ _ => simp [ShutdownState.step, progress] at hstep
  | waiting progress cancelled =>
      let pending : List Nat := tasks.dedup.filter fun task => !σ.isDone task
      have hτ : τ = σ.resume (σ.registry.waitReturned count pending) := by
        simp only [ShutdownState.step, progress] at hstep
        exact (Option.some.inj hstep).symm
      have hmem : ∀ task, task ∈ pending ↔ task ∈ tasks ∧ σ.isDone task = false := by
        simp [pending]
      have hcount : ∀ task, (tasks ++ pending).count task =
          tasks.count task + if task ∈ tasks ∧ σ.isDone task = false then 1 else 0 := by
        intro task
        have hnodup : pending.Nodup := tasks.nodup_dedup.filter _
        rw [List.count_append, hnodup.count]
        simp only [hmem]
      rw [ConnectionRegistry.waitReturned] at hτ
      split at hτ
      · rename_i hnone
        have hnil : pending = [] := List.isEmpty_iff.mp hnone
        subst hτ
        refine .returned rfl ⟨acts, [], σ, rfl, run, ?_⟩ ?_ rfl
        · intro task
          rw [← hcount, hnil]
          simp [resume, ConnectionRegistry.finishClose, cancelled]
        · intro task htask
          by_contra hrunning
          have hpending := (hmem task).mpr ⟨htask, by simpa [isDone, resume] using hrunning⟩
          simp [hnil] at hpending
      · subst hτ
        refine .gathering pending rfl ⟨acts, [], σ, rfl, run, ?_⟩ ?_
        · intro task
          rw [← hcount, ← cancelled]
          rfl
        · intro task htask
          rw [hmem]
          cases hdone : σ.isDone task with
          | true => exact Or.inr hdone
          | false => exact Or.inl ⟨htask, rfl⟩

/-- `gather` has returned: the tasks it waited for are done, and so are the others. -/
theorem Draining.gatherReturns (h : Draining tasks count called acts σ)
    (hstep : σ.step .gatherReturns = some τ) :
    Draining tasks count called (acts ++ [.gatherReturns]) τ := by
  cases h with
  | waiting progress _ => simp [ShutdownState.step, progress] at hstep
  | returned progress _ _ _ => simp [ShutdownState.step, progress] at hstep
  | gathering pending progress second covered =>
      simp only [ShutdownState.step, progress] at hstep
      split at hstep
      · rename_i hall
        obtain rfl := Option.some.inj hstep
        refine .returned rfl (second.snoc ?_) ?_ rfl
        · simp [resume, ConnectionRegistry.gatherReturned, ConnectionRegistry.finishClose]
        · intro task htask
          rcases covered task htask with hpending | hdone
          · exact List.all_eq_true.mp hall task hpending
          · exact hdone
      · simp at hstep

/-- A task that is done stays done. -/
theorem isDone_finish {task : Nat} {outcome : TaskOutcome} (other : Nat)
    (h : σ.isDone other = true) :
    isDone { σ with outcome := Function.update σ.outcome task (some outcome) } other = true := by
  by_cases he : other = task
  · simp [isDone, he]
  · simpa [isDone, he] using h

theorem Draining.step (h : Draining tasks count called acts σ) (run : Run step called acts σ)
    (hstep : σ.step a = some τ) (honce : a ≠ .closeAll) (hregister : ∀ info, a ≠ .register info) :
    Draining tasks count called (acts ++ [a]) τ := by
  cases a with
  | register info => exact absurd rfl (hregister info)
  | closeAll => exact absurd rfl honce
  | deregister connectionId =>
      obtain rfl := Option.some.inj hstep
      refine h.handler rfl rfl (fun _ hdone => hdone) ?_
      intro hempty
      change (σ.registry.deregister connectionId).activeCount = 0
      rw [ConnectionRegistry.activeCount_deregister, hempty]
      split <;> rfl
  | finish task outcome =>
      obtain rfl := step_finish hstep
      exact h.handler rfl rfl isDone_finish id
  | waitReturns => exact h.waitReturns run hstep
  | gatherReturns => exact h.gatherReturns hstep

/-- Once `close_all` was called, the flag stays. -/
theorem step_isShuttingDown (hσ : σ.registry.isShuttingDown = true) (hstep : σ.step a = some τ) :
    τ.registry.isShuttingDown = true := by
  cases a with
  | register info =>
      obtain ⟨_, rfl⟩ := step_register hstep
      exact hσ
  | deregister connectionId =>
      obtain rfl := Option.some.inj hstep
      exact hσ
  | finish task outcome =>
      obtain rfl := step_finish hstep
      exact hσ
  | closeAll =>
      obtain rfl := step_closeAll hstep
      change σ.registry.closeAll.registry.shuttingDown = true
      rw [σ.registry.closeAll_spec.1]
  | waitReturns =>
      obtain ⟨count, tasks, _, ⟨_, rfl⟩ | ⟨_, pending, _, rfl⟩⟩ := step_waitReturns hstep
      · exact hσ
      · exact hσ
  | gatherReturns =>
      obtain ⟨_, _, _, rfl⟩ := step_gatherReturns hstep
      exact hσ

/-- A suspended `close_all` can go on once what it waits for has happened, and then without
an exception, however the tasks ended. -/
theorem goes_on (σ : ShutdownState) :
    (∀ count tasks, σ.progress = .waiting count tasks → (σ.step .waitReturns).isSome = true) ∧
      ∀ count pending, σ.progress = .gathering count pending →
        (∀ task ∈ pending, σ.isDone task = true) →
        ∃ result, σ.registry.awaitGather count (pending.filterMap σ.outcome) = .ok result ∧
          σ.step .gatherReturns = some (σ.resume result) := by
  constructor
  · intro count tasks hp
    simp [ShutdownState.step, hp]
  · intro count pending hp hdone
    refine ⟨σ.registry.gatherReturned count, ConnectionRegistry.awaitGather_eq _ _ _, ?_⟩
    have hall : pending.all σ.isDone = true := List.all_eq_true.mpr hdone
    simp [ShutdownState.step, hp, hall]

end Steps

/-- However a drain has gone on, it is in one of its three phases. -/
theorem draining_of_run {σ called τ : ShutdownState} (hsome : σ.registry.activeCount ≠ 0)
    (hcall : σ.step .closeAll = some called) {acts : List ShutdownAction}
    (run : Run step called acts τ) (hhandlers : Handlers acts) :
    Draining σ.tasks σ.registry.activeCount called acts τ ∧
      τ.registry.isShuttingDown = true := by
  induction run with
  | nil => exact draining_of_closeAll hsome hcall
  | @snoc acts ω a τ run h ih =>
      obtain ⟨hdraining, hflag⟩ := ih fun b hb => hhandlers b (List.mem_append_left _ hb)
      have hmem : a ∈ acts ++ [a] := List.mem_append_right _ (List.mem_singleton.mpr rfl)
      obtain ⟨honce, hregister⟩ := hhandlers a hmem
      exact ⟨hdraining.step run h honce hregister, step_isShuttingDown hflag h⟩

/-- A `close_all` called in any state on a non-empty registry and, after any steps of handlers
that register nothing, returned: every task registered at the call is done, each was cancelled,
a second time exactly if it was not done when the wait was over; no exception stopped
`close_all` on the way; the registry is empty, the flag is set, and the result is the number
of connections at the call. -/
theorem close_all_drains {σ called τ : ShutdownState} (hsome : σ.registry.activeCount ≠ 0)
    (hcall : σ.step .closeAll = some called) {acts : List ShutdownAction}
    (run : Run step called acts τ) (hhandlers : Handlers acts) {count : Nat}
    (hreturned : τ.progress = .returned count) :
    (∀ task ∈ σ.tasks, τ.isDone task = true ∧ task ∈ τ.cancelled) ∧
    CancelledTwice σ.tasks called acts τ ∧
    Throughout step called (fun _ ω =>
      (∀ count tasks, ω.progress = .waiting count tasks → (ω.step .waitReturns).isSome = true) ∧
      ∀ count pending, ω.progress = .gathering count pending →
        (∀ task ∈ pending, ω.isDone task = true) →
        ∃ result, ω.registry.awaitGather count (pending.filterMap ω.outcome) = .ok result ∧
          ω.step .gatherReturns = some (ω.resume result)) acts ∧
    τ.registry.activeCount = 0 ∧ τ.registry.isShuttingDown = true ∧
    count = σ.registry.activeCount := by
  obtain ⟨hdraining, hflag⟩ := draining_of_run hsome hcall run hhandlers
  cases hdraining with
  | waiting progress _ => simp [progress] at hreturned
  | gathering _ progress _ _ => simp [progress] at hreturned
  | returned progress second done empty =>
      refine ⟨?_, second, fun _ _ ω _ _ => goes_on ω, empty, hflag, ?_⟩
      · intro task htask
        refine ⟨done task htask, ?_⟩
        obtain ⟨_, _, _, _, _, hcount⟩ := second
        rw [← List.count_pos_iff, hcount]
        have hpos := List.count_pos_iff.mpr htask
        omega
      · exact CloseProgress.returned.inj (hreturned.symm.trans progress)

/-- Three handlers: one ends by itself, one raises on the first cancel and deregisters another
one, and one needs the second. -/
def mixedActs : List ShutdownAction :=
  [.finish 0 .returned, .deregister "c", .finish 1 .raised, .waitReturns, .finish 2 .cancelled,
    .deregister "a", .gatherReturns]

/-- The state in which their `close_all` is called. -/
def mixedActsStart : List ShutdownAction :=
  [.register ⟨"a", "u1", 0, 0⟩, .register ⟨"b", "u2", 0, 1⟩, .register ⟨"c", "u3", 0, 2⟩]

theorem close_all_drains_mixed :
    let σ := (exec step start mixedActsStart).get (by decide)
    let called := (σ.step .closeAll).get (by decide)
    let τ := (exec step called mixedActs).get (by decide)
    (∀ task ∈ σ.tasks, τ.isDone task = true ∧ task ∈ τ.cancelled) ∧ σ.tasks = [0, 1, 2] ∧
      τ.cancelled = [0, 1, 2, 2] ∧ τ.registry.activeCount = 0 := by
  intro σ called τ
  have hcall : σ.step .closeAll = some called := (Option.some_get (by decide)).symm
  have run : Run step called mixedActs τ := run_get (by decide)
  have hhandlers : Handlers mixedActs := by
    simp [Handlers, mixedActs]
  have hreturned : τ.progress = .returned 3 := by decide
  have hdrained := close_all_drains (by decide) hcall run hhandlers hreturned
  exact ⟨hdrained.1, by decide, by decide, hdrained.2.2.2.1⟩

end ShutdownState

end WebSocketPatterns.Shutdown
