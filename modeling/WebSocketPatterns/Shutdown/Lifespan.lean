import WebSocketPatterns.Shutdown.CloseAll

/-!
# Lifespans and the module's registry

`create_lifespan` makes a registry, publishes it as `_registry`, and on its way
out runs `close_all` on it and sets `_registry` to `None`. Lifespans may
overlap; each is named by the order of entry, and so is its registry. A
lifespan may be cancelled while `close_all` is suspended; the exception then
leaves the `finally` block before `_registry` is reset. The cancels that a
cancelled `gather` passes on are not recorded, since tasks end as they like.
-/

namespace WebSocketPatterns.Shutdown

open Transition

/-- `close_all` has returned. -/
def CloseProgress.isReturned : CloseProgress → Bool
  | .returned _ => true
  | _ => false

/-- Where a lifespan stands: at its `yield`, in its `finally` block, or cancelled there. It is
over once `close_all` has returned, since nothing after that suspends. -/
inductive LifespanPhase
  | serving
  | exiting (progress : CloseProgress)
  | cancelled
deriving DecidableEq

namespace LifespanPhase

/-- The context has been left. -/
def isOver : LifespanPhase → Bool
  | .serving => false
  | .exiting progress => progress.isReturned
  | .cancelled => true

end LifespanPhase

/-- A lifespan, with the record of what was registered when it began to exit and of the tasks
its `close_all` cancelled. -/
structure Lifespan where
  phase : LifespanPhase := .serving
  atExit : List ConnectionInfo := []
  asked : List Nat := []

/-- The variable `_registry`, the registries, the lifespans, and the tasks that are done. -/
structure LifespanState where
  registry : Option Nat
  registries : Nat → ConnectionRegistry
  lifespans : List Lifespan
  outcome : Nat → Option TaskOutcome

/-- Steps of the lifespans, of the handlers and of their tasks. A handler registers with what
`get_registry` returns or with the registry a lifespan yielded. -/
inductive LifespanAction
  | enter
  | connect (info : ConnectionInfo)
  | register (lifespan : Nat) (info : ConnectionInfo)
  | deregister (lifespan : Nat) (connectionId : String)
  | finish (task : Nat) (outcome : TaskOutcome)
  | exit (lifespan : Nat)
  | waitReturns (lifespan : Nat)
  | gatherReturns (lifespan : Nat)
  | cancel (lifespan : Nat)

namespace LifespanState

/-- The module as it is imported. -/
def start : LifespanState where
  registry := none
  registries := fun _ => ConnectionRegistry.new
  lifespans := []
  outcome := fun _ => none

/-- `task.done()`. -/
def isDone (σ : LifespanState) (task : Nat) : Bool := (σ.outcome task).isSome

/-- The module's registry; the error is the message of the `RuntimeError`. -/
def getRegistry (σ : LifespanState) : Except String Nat :=
  match σ.registry with
  | none =>
      .error "ConnectionRegistry not initialised. Use create_lifespan() in your FastAPI app."
  | some i => .ok i

/-- Replace one registry. -/
def setRegistry (σ : LifespanState) (i : Nat) (r : ConnectionRegistry) : LifespanState :=
  { σ with registries := Function.update σ.registries i r }

/-- `close_all` has run to its next suspension or its return; on a return the lifespan goes on
to its end. -/
def resume (σ : LifespanState) (i : Nat) (lifespan : Lifespan) (result : CloseStep) :
    LifespanState :=
  { σ with
    registry := if result.progress.isReturned then none else σ.registry
    registries := Function.update σ.registries i result.registry
    lifespans := σ.lifespans.set i
      { lifespan with
        phase := .exiting result.progress
        asked := lifespan.asked ++ result.cancels } }

/-- One action; `none` when it is not possible. -/
def step (σ : LifespanState) : LifespanAction → Option LifespanState
  | .enter =>
      some { σ with
        registry := some σ.lifespans.length
        registries := Function.update σ.registries σ.lifespans.length ConnectionRegistry.new
        lifespans := σ.lifespans ++ [{}] }
  | .connect info =>
      match σ.getRegistry with
      | .error _ => some σ
      | .ok i => some (σ.setRegistry i ((σ.registries i).register info))
  | .register i info =>
      if i < σ.lifespans.length then
        some (σ.setRegistry i ((σ.registries i).register info))
      else none
  | .deregister i connectionId =>
      if i < σ.lifespans.length then
        some (σ.setRegistry i ((σ.registries i).deregister connectionId))
      else none
  | .finish task outcome =>
      if σ.isDone task then none
      else some { σ with outcome := Function.update σ.outcome task (some outcome) }
  | .exit i =>
      (σ.lifespans[i]?).bind fun lifespan =>
        match lifespan.phase with
        | .serving =>
            let r := σ.registries i
            some (σ.resume i { lifespan with atExit := r.connections.values } r.closeAll)
        | _ => none
  | .waitReturns i =>
      (σ.lifespans[i]?).bind fun lifespan =>
        match lifespan.phase with
        | .exiting (.waiting count tasks) =>
            some <| σ.resume i lifespan <| (σ.registries i).waitReturned count <|
              tasks.dedup.filter fun task => !σ.isDone task
        | _ => none
  | .gatherReturns i =>
      (σ.lifespans[i]?).bind fun lifespan =>
        match lifespan.phase with
        | .exiting (.gathering count pending) =>
            if pending.all σ.isDone then
              some (σ.resume i lifespan ((σ.registries i).gatherReturned count))
            else none
        | _ => none
  | .cancel i =>
      (σ.lifespans[i]?).bind fun lifespan =>
        match lifespan.phase with
        | .exiting progress =>
            if progress.isReturned then none
            else
              some { σ with
                lifespans := σ.lifespans.set i { lifespan with phase := .cancelled } }
        | _ => none

/-- The phase of a lifespan that was entered. -/
def phase? (σ : LifespanState) (i : Nat) : Option LifespanPhase :=
  (σ.lifespans[i]?).map Lifespan.phase

/-- Another lifespan than the given one is at its `yield`. -/
def othersServe (σ : LifespanState) (i : Nat) : Bool :=
  (List.range σ.lifespans.length).any fun j =>
    decide (j ≠ i) && decide (σ.phase? j = some .serving)

/-- A task that the lifespan's `close_all` waits for is not done. -/
def awaitsTask (σ : LifespanState) (i : Nat) : Bool :=
  match σ.phase? i with
  | some (.exiting (.waiting _ tasks)) => tasks.any fun task => !σ.isDone task
  | _ => false

/-- If other lifespans serve, the step neither resets `_registry` nor begins to close the
registry that `_registry` holds. -/
def keepsRegistry (σ : LifespanState) : LifespanAction → Bool
  | .exit i =>
      !σ.othersServe i ||
        decide (σ.registry ≠ some i) && decide ((σ.registries i).activeCount ≠ 0)
  | .waitReturns i => !σ.othersServe i || σ.awaitsTask i
  | .gatherReturns i => !σ.othersServe i
  | _ => true

/-- A lifespan is entered when all others are over, and none is cancelled in its exit. -/
def isSeparate (σ : LifespanState) : LifespanAction → Bool
  | .enter => σ.lifespans.all fun lifespan => lifespan.phase.isOver
  | .cancel _ => false
  | _ => true

/-- While a lifespan serves, `get_registry` returns the registry of one that does. -/
def ServesRequests (σ : LifespanState) : Prop :=
  (∃ i, σ.phase? i = some .serving) →
    ∃ i, σ.getRegistry = .ok i ∧ σ.phase? i = some .serving

/-- `get_registry` returns the registry of the lifespan that is not over. -/
def NamesTheLifespan (σ : LifespanState) : Prop :=
  ∀ i, σ.getRegistry = .ok i ↔ ∃ phase, σ.phase? i = some phase ∧ phase.isOver = false

/-! ## What a step does -/

@[simp] theorem getRegistry_eq_ok_iff (σ : LifespanState) (i : Nat) :
    σ.getRegistry = .ok i ↔ σ.registry = some i := by
  unfold getRegistry
  cases σ.registry with
  | none => simp
  | some j => simp

theorem othersServe_iff (σ : LifespanState) (i : Nat) :
    σ.othersServe i = true ↔ ∃ j, j ≠ i ∧ σ.phase? j = some .serving := by
  simp only [othersServe, List.any_eq_true, List.mem_range, Bool.and_eq_true,
    decide_eq_true_eq]
  constructor
  · rintro ⟨j, _, hj⟩
    exact ⟨j, hj⟩
  · rintro ⟨j, hne, hj⟩
    obtain ⟨l, hl, _⟩ := Option.map_eq_some_iff.mp hj
    exact ⟨j, (List.getElem?_eq_some_iff.mp hl).1, hne, hj⟩

theorem phase?_eq {σ : LifespanState} {i : Nat} {lifespan : Lifespan} {phase : LifespanPhase}
    (found : σ.lifespans[i]? = some lifespan) (h : lifespan.phase = phase) :
    σ.phase? i = some phase := by
  rw [phase?, found, Option.map_some, h]

/-- One lifespan goes on to another phase, and the others stay as they were. -/
theorem phase?_set {σ τ : LifespanState} {i : Nat} {lifespan : Lifespan}
    (hi : i < σ.lifespans.length) (h : τ.lifespans = σ.lifespans.set i lifespan) (j : Nat) :
    τ.phase? j = if j = i then some lifespan.phase else σ.phase? j := by
  rw [phase?, h]
  by_cases hj : j = i
  · subst hj
    simp [hi]
  · rw [List.getElem?_set_ne (Ne.symm hj), if_neg hj]
    rfl

/-- What a step can do: handlers and tasks touch neither `_registry` nor a lifespan. -/
inductive Effect (σ τ : LifespanState) : LifespanAction → Prop
  | enter (registry : τ.registry = some σ.lifespans.length)
      (lifespans : τ.lifespans = σ.lifespans ++ [({} : Lifespan)])
      (outcome : τ.outcome = σ.outcome) :
      Effect σ τ .enter
  | handler (a : LifespanAction) (registry : τ.registry = σ.registry)
      (lifespans : τ.lifespans = σ.lifespans)
      (done : ∀ task, σ.isDone task = true → τ.isDone task = true)
      (keeps : σ.keepsRegistry a = true) (separate : σ.isSeparate a = true) : Effect σ τ a
  | exit (i : Nat) (lifespan : Lifespan) (found : σ.lifespans[i]? = some lifespan)
      (phase : lifespan.phase = .serving)
      (result : τ = σ.resume i
        { lifespan with atExit := (σ.registries i).connections.values }
        (σ.registries i).closeAll) : Effect σ τ (.exit i)
  | waitReturns (i : Nat) (lifespan : Lifespan) (count : Nat) (tasks : List Nat)
      (found : σ.lifespans[i]? = some lifespan)
      (phase : lifespan.phase = .exiting (.waiting count tasks))
      (result : τ = σ.resume i lifespan ((σ.registries i).waitReturned count
        (tasks.dedup.filter fun task => !σ.isDone task))) : Effect σ τ (.waitReturns i)
  | gatherReturns (i : Nat) (lifespan : Lifespan) (count : Nat) (pending : List Nat)
      (found : σ.lifespans[i]? = some lifespan)
      (phase : lifespan.phase = .exiting (.gathering count pending))
      (done : ∀ task ∈ pending, σ.isDone task = true)
      (result : τ = σ.resume i lifespan ((σ.registries i).gatherReturned count)) :
      Effect σ τ (.gatherReturns i)
  | cancel (i : Nat) (lifespan : Lifespan) (progress : CloseProgress)
      (found : σ.lifespans[i]? = some lifespan) (phase : lifespan.phase = .exiting progress)
      (pending : progress.isReturned = false)
      (result : τ = { σ with
        lifespans := σ.lifespans.set i { lifespan with phase := .cancelled } }) :
      Effect σ τ (.cancel i)

theorem effect_of_step {σ τ : LifespanState} {a : LifespanAction} (h : σ.step a = some τ) :
    Effect σ τ a := by
  cases a with
  | enter =>
      obtain rfl := Option.some.inj h
      exact .enter rfl rfl rfl
  | connect info =>
      simp only [LifespanState.step] at h
      split at h
      · obtain rfl := Option.some.inj h
        exact .handler _ rfl rfl (fun _ hdone => hdone) rfl rfl
      · obtain rfl := Option.some.inj h
        exact .handler _ rfl rfl (fun _ hdone => hdone) rfl rfl
  | register i info =>
      simp only [LifespanState.step] at h
      obtain ⟨_, h⟩ := Option.ite_none_right_eq_some.mp h
      obtain rfl := Option.some.inj h
      exact .handler _ rfl rfl (fun _ hdone => hdone) rfl rfl
  | deregister i connectionId =>
      simp only [LifespanState.step] at h
      obtain ⟨_, h⟩ := Option.ite_none_right_eq_some.mp h
      obtain rfl := Option.some.inj h
      exact .handler _ rfl rfl (fun _ hdone => hdone) rfl rfl
  | finish task outcome =>
      simp only [LifespanState.step] at h
      obtain ⟨_, h⟩ := Option.ite_none_left_eq_some.mp h
      obtain rfl := Option.some.inj h
      refine .handler _ rfl rfl ?_ rfl rfl
      intro other hdone
      by_cases he : other = task
      · simp [isDone, he]
      · simpa [isDone, he] using hdone
  | exit i =>
      simp only [LifespanState.step] at h
      obtain ⟨lifespan, hfound, h⟩ := Option.bind_eq_some_iff.mp h
      split at h
      · rename_i hphase
        exact .exit i lifespan hfound hphase (Option.some.inj h).symm
      · simp at h
  | waitReturns i =>
      simp only [LifespanState.step] at h
      obtain ⟨lifespan, hfound, h⟩ := Option.bind_eq_some_iff.mp h
      split at h
      · rename_i count tasks hphase
        exact .waitReturns i lifespan count tasks hfound hphase (Option.some.inj h).symm
      · simp at h
  | gatherReturns i =>
      simp only [LifespanState.step] at h
      obtain ⟨lifespan, hfound, h⟩ := Option.bind_eq_some_iff.mp h
      split at h
      · rename_i count pending hphase
        obtain ⟨hdone, h⟩ := Option.ite_none_right_eq_some.mp h
        exact .gatherReturns i lifespan count pending hfound hphase
          (List.all_eq_true.mp hdone) (Option.some.inj h).symm
      · simp at h
  | cancel i =>
      simp only [LifespanState.step] at h
      obtain ⟨lifespan, hfound, h⟩ := Option.bind_eq_some_iff.mp h
      split at h
      · rename_i progress hphase
        obtain ⟨hpending, h⟩ := Option.ite_none_left_eq_some.mp h
        exact .cancel i lifespan progress hfound hphase (Bool.eq_false_iff.mpr hpending)
          (Option.some.inj h).symm
      · simp at h

/-! ## What `get_registry` returns -/

section Steps

variable {σ τ : LifespanState} {a : LifespanAction}

/-- A lifespan that is entered serves. -/
theorem phase?_enter (lifespans : τ.lifespans = σ.lifespans ++ [({} : Lifespan)]) (i : Nat) :
    τ.phase? i = if i = σ.lifespans.length then some .serving else σ.phase? i := by
  rw [phase?, lifespans, List.getElem?_append]
  split
  · rename_i hlt
    rw [if_neg hlt.ne]
    rfl
  · rename_i hge
    by_cases he : i = σ.lifespans.length
    · subst he
      simp
    · have hgt : i - σ.lifespans.length ≠ 0 := by omega
      have hnone : σ.lifespans.length ≤ i := by omega
      simp [he, hgt, phase?, List.getElem?_eq_none_iff.mpr hnone]

/-- When a lifespan's `close_all` goes on, requests are served as before exactly if no other
lifespan serves, or the variable keeps the registry of one that does. -/
theorem servesRequests_resume_iff (hserves : σ.ServesRequests) {i : Nat}
    (hi : i < σ.lifespans.length) (exiting : Lifespan) (result : CloseStep) :
    (σ.resume i exiting result).ServesRequests ↔
      (σ.othersServe i = true → result.progress.isReturned = false ∧ σ.registry ≠ some i) := by
  have hphase := phase?_set (τ := σ.resume i exiting result) hi rfl
  have hserving : ∀ j, (σ.resume i exiting result).phase? j = some .serving ↔
      j ≠ i ∧ σ.phase? j = some .serving := by
    intro j
    rw [hphase]
    by_cases hj : j = i <;> simp [hj]
  simp only [ServesRequests, hserving, getRegistry_eq_ok_iff, ← othersServe_iff]
  constructor
  · intro h hothers
    obtain ⟨j, hj, hne, _⟩ := h hothers
    simp only [resume] at hj
    obtain ⟨hreturned, hj⟩ := Option.ite_none_left_eq_some.mp hj
    refine ⟨Bool.eq_false_iff.mpr hreturned, ?_⟩
    rw [hj]
    exact fun he => hne (Option.some.inj he)
  · intro h hothers
    obtain ⟨hreturned, hcurrent⟩ := h hothers
    obtain ⟨j, _, hj⟩ := (othersServe_iff σ i).mp hothers
    obtain ⟨k, hk, hkserves⟩ := hserves ⟨j, hj⟩
    rw [getRegistry_eq_ok_iff] at hk
    refine ⟨k, ?_, ?_, hkserves⟩
    · simpa [resume, hreturned] using hk
    · rintro rfl
      exact hcurrent hk

/-- The first part of `close_all` returns exactly on an empty registry. -/
theorem closeAll_isReturned (r : ConnectionRegistry) :
    r.closeAll.progress.isReturned = decide (r.activeCount = 0) := by
  rw [ConnectionRegistry.closeAll_progress]
  split
  · rename_i hempty
    simp [CloseProgress.isReturned, hempty]
  · rename_i hsome
    simp [CloseProgress.isReturned, hsome]

/-- After the wait, `close_all` returns exactly if every task it waited for is done. -/
theorem waitReturned_isReturned (σ : LifespanState) (r : ConnectionRegistry) (count : Nat)
    (tasks : List Nat) :
    (r.waitReturned count (tasks.dedup.filter fun task => !σ.isDone task)).progress.isReturned =
      !tasks.any fun task => !σ.isDone task := by
  rw [ConnectionRegistry.waitReturned, Bool.eq_iff_iff]
  split
  · rename_i hempty
    simpa [ConnectionRegistry.finishClose, CloseProgress.isReturned] using hempty
  · rename_i hpending
    simpa [CloseProgress.isReturned] using hpending

/-- A lifespan that is not serving does not hold the registry requests are served with. -/
theorem registry_ne_of_othersServe (hserves : σ.ServesRequests) {i : Nat}
    (hphase : σ.phase? i ≠ some .serving) (hothers : σ.othersServe i = true) :
    σ.registry ≠ some i := by
  obtain ⟨j, _, hj⟩ := (othersServe_iff σ i).mp hothers
  obtain ⟨k, hk, hkserves⟩ := hserves ⟨j, hj⟩
  rw [getRegistry_eq_ok_iff] at hk
  intro hi
  obtain rfl := Option.some.inj (hi.symm.trans hk)
  exact hphase hkserves

/-- From a state in which requests are served, a step keeps them served exactly when it
leaves `_registry` to the lifespans that serve. -/
theorem step_servesRequests_iff (hserves : σ.ServesRequests) (h : σ.step a = some τ) :
    τ.ServesRequests ↔ σ.keepsRegistry a = true := by
  cases effect_of_step h with
  | enter registry lifespans _ =>
      refine iff_of_true ?_ rfl
      intro _
      refine ⟨σ.lifespans.length, ?_, ?_⟩
      · rw [getRegistry_eq_ok_iff, registry]
      · rw [phase?_enter lifespans, if_pos rfl]
  | handler _ registry lifespans _ keeps _ =>
      refine iff_of_true ?_ keeps
      simpa only [ServesRequests, phase?, getRegistry_eq_ok_iff, registry, lifespans]
        using hserves
  | exit i lifespan found phase result =>
      have hi := (List.getElem?_eq_some_iff.mp found).1
      rw [result, servesRequests_resume_iff hserves hi, closeAll_isReturned, keepsRegistry]
      cases σ.othersServe i with
      | false => simp
      | true => simp [and_comm]
  | waitReturns i lifespan count tasks found phase result =>
      have hi := (List.getElem?_eq_some_iff.mp found).1
      have hphase := phase?_eq found phase
      have hcurrent := registry_ne_of_othersServe hserves (i := i) (by simp [hphase])
      rw [result, servesRequests_resume_iff hserves hi, waitReturned_isReturned, keepsRegistry,
        awaitsTask, hphase]
      cases hothers : σ.othersServe i with
      | false => simp
      | true => simp [hcurrent hothers]
  | gatherReturns i lifespan count pending found phase _ result =>
      have hi := (List.getElem?_eq_some_iff.mp found).1
      rw [result, servesRequests_resume_iff hserves hi, keepsRegistry]
      simp [ConnectionRegistry.gatherReturned, ConnectionRegistry.finishClose,
        CloseProgress.isReturned]
  | cancel i lifespan progress found phase _ result =>
      refine iff_of_true ?_ rfl
      have hi := (List.getElem?_eq_some_iff.mp found).1
      have hserving : ∀ j, τ.phase? j = some .serving ↔ σ.phase? j = some .serving := by
        intro j
        rw [phase?_set hi (congrArg LifespanState.lifespans result)]
        by_cases hj : j = i
        · subst hj
          simp [phase?_eq found phase]
        · simp [hj]
      have hregistry : τ.registry = σ.registry := by
        rw [result]
      simpa only [ServesRequests, hserving, getRegistry_eq_ok_iff, hregistry] using hserves

/-- The exit of the one lifespan that is not over ends with `_registry` reset, or goes on. -/
theorem namesTheLifespan_resume (hnames : σ.NamesTheLifespan) {i : Nat}
    {phase : LifespanPhase} (hphase : σ.phase? i = some phase) (hover : phase.isOver = false)
    (exiting : Lifespan) (result : CloseStep) :
    (σ.resume i exiting result).NamesTheLifespan := by
  have hcurrent : σ.registry = some i :=
    (getRegistry_eq_ok_iff σ i).mp ((hnames i).mpr ⟨phase, hphase, hover⟩)
  obtain ⟨l, hl, _⟩ := Option.map_eq_some_iff.mp hphase
  have hset := phase?_set (τ := σ.resume i exiting result)
    (List.getElem?_eq_some_iff.mp hl).1 rfl
  intro j
  rw [getRegistry_eq_ok_iff, hset]
  by_cases hj : j = i
  · subst hj
    cases hreturned : result.progress.isReturned with
    | false => simp [resume, hreturned, hcurrent, LifespanPhase.isOver]
    | true => simp [resume, hreturned, LifespanPhase.isOver]
  · have hold := hnames j
    rw [getRegistry_eq_ok_iff, hcurrent] at hold
    rw [if_neg hj, ← hold]
    cases hreturned : result.progress.isReturned with
    | false => simp [resume, hreturned, hcurrent]
    | true => simpa [resume, hreturned] using Ne.symm hj

/-- From a state in which `_registry` names the lifespan that is not over, a step keeps that
exactly when it enters no lifespan too early and cancels none. -/
theorem step_namesTheLifespan_iff (hnames : σ.NamesTheLifespan) (h : σ.step a = some τ) :
    τ.NamesTheLifespan ↔ σ.isSeparate a = true := by
  cases effect_of_step h with
  | enter registry lifespans _ =>
      have hphase := phase?_enter lifespans
      have hnone : σ.phase? σ.lifespans.length = none := by
        simp [phase?]
      simp only [NamesTheLifespan, getRegistry_eq_ok_iff, registry, hphase, isSeparate,
        List.all_eq_true]
      constructor
      · intro hnew lifespan hmem
        obtain ⟨j, hj⟩ := List.mem_iff_getElem?.mp hmem
        have hlt := (List.getElem?_eq_some_iff.mp hj).1
        by_contra hover
        have hlast := (hnew j).mpr ⟨lifespan.phase, by simp [phase?, hj, hlt.ne], by
          simpa using hover⟩
        exact hlt.ne (Option.some.inj hlast).symm
      · intro hall j
        by_cases hj : j = σ.lifespans.length
        · subst hj
          simp [LifespanPhase.isOver]
        · rw [if_neg hj]
          apply iff_of_false
          · simpa using Ne.symm hj
          · rintro ⟨phase, hp, hover⟩
            obtain ⟨lifespan, hl, rfl⟩ := Option.map_eq_some_iff.mp hp
            simp [hall lifespan (List.mem_of_getElem? hl)] at hover
  | handler _ registry lifespans _ _ separate =>
      refine iff_of_true ?_ separate
      simpa only [NamesTheLifespan, phase?, getRegistry_eq_ok_iff, registry, lifespans]
        using hnames
  | exit i lifespan found phase result =>
      refine iff_of_true ?_ rfl
      rw [result]
      exact namesTheLifespan_resume hnames (phase?_eq found phase) rfl _ _
  | waitReturns i lifespan count tasks found phase result =>
      refine iff_of_true ?_ rfl
      rw [result]
      exact namesTheLifespan_resume hnames (phase?_eq found phase) rfl _ _
  | gatherReturns i lifespan count pending found phase _ result =>
      refine iff_of_true ?_ rfl
      rw [result]
      exact namesTheLifespan_resume hnames (phase?_eq found phase) rfl _ _
  | cancel i lifespan progress found phase pending result =>
      refine iff_of_false ?_ (by simp [isSeparate])
      intro hnew
      have hphase := phase?_eq found phase
      have hold := (hnames i).mpr ⟨_, hphase, pending⟩
      obtain ⟨ended, hended, hnot⟩ := (hnew i).mp (by simpa [result] using hold)
      have hi := (List.getElem?_eq_some_iff.mp found).1
      rw [phase?_set hi (congrArg LifespanState.lifespans result), if_pos rfl] at hended
      obtain rfl := Option.some.inj hended
      simp [LifespanPhase.isOver] at hnot

end Steps

/-- In every run, `get_registry` finds the registry of a serving lifespan as long as there is
one if and only if, while other lifespans serve, no step of a `close_all` resets `_registry`
or begins to close the registry it holds. -/
theorem get_registry_serves_iff {acts : List LifespanAction} {σ : LifespanState}
    (run : Run step start acts σ) :
    Throughout step start (fun _ σ => σ.ServesRequests) acts ↔
      EachStep step start (fun _ σ a => σ.keepsRegistry a = true) acts := by
  apply throughout_iff_eachStep ?_ ?_ run
  · simp [ServesRequests, phase?, start]
  · intro _ _ _ _ _ hserves h
    exact step_servesRequests_iff hserves h

/-- The second lifespan takes over and ends last; the first one's registry is not empty. -/
def takeOverActs : List LifespanAction :=
  [.enter, .connect ⟨"a", "u1", 0, 0⟩, .enter, .connect ⟨"b", "u2", 0, 1⟩, .exit 0, .cancel 0,
    .connect ⟨"c", "u3", 0, 2⟩, .exit 1, .finish 1 .cancelled, .finish 2 .returned,
    .waitReturns 1]

theorem get_registry_serves_take_over :
    Throughout step start (fun _ σ => σ.ServesRequests) takeOverActs := by
  have run := run_get (show (exec step start takeOverActs).isSome from by decide)
  apply (get_registry_serves_iff run).mpr
  decide

/-- A lifespan after the other. -/
def restartActs : List LifespanAction :=
  [.enter, .connect ⟨"a", "u1", 0, 0⟩, .exit 0, .waitReturns 0, .finish 0 .cancelled,
    .gatherReturns 0, .enter, .exit 1]

/-- How far a lifespan has come with the connections registered when it began to exit. -/
inductive Exiting (σ : LifespanState) (lifespan : Lifespan) : Prop
  | serving (phase : lifespan.phase = .serving)
  | waiting (tasks : List Nat)
      (phase : lifespan.phase = .exiting (.waiting lifespan.atExit.length tasks))
      (covered : ∀ info ∈ lifespan.atExit, info.task ∈ tasks)
  | gathering (pending : List Nat)
      (phase : lifespan.phase = .exiting (.gathering lifespan.atExit.length pending))
      (covered : ∀ info ∈ lifespan.atExit, info.task ∈ pending ∨ σ.isDone info.task = true)
  | exited (phase : lifespan.phase = .exiting (.returned lifespan.atExit.length))
      (done : ∀ info ∈ lifespan.atExit, σ.isDone info.task = true)
  | cancelled (phase : lifespan.phase = .cancelled)

/-- What holds between any two actions of overlapping lifespans. -/
structure Inv (σ : LifespanState) : Prop where
  current : ∀ i, σ.registry = some i → i + 1 = σ.lifespans.length ∧
    ∀ closed, σ.phase? i ≠ some (.exiting (.returned closed))
  exiting : ∀ lifespan ∈ σ.lifespans, Exiting σ lifespan
  asked : ∀ lifespan ∈ σ.lifespans, ∀ info ∈ lifespan.atExit, info.task ∈ lifespan.asked

theorem start_inv : start.Inv where
  current := by simp [start]
  exiting := by simp [start]
  asked := by simp [start]

/-- Tasks that end only bring an exit further. -/
theorem Exiting.mono {σ τ : LifespanState} {lifespan : Lifespan} (h : Exiting σ lifespan)
    (done : ∀ task, σ.isDone task = true → τ.isDone task = true) : Exiting τ lifespan := by
  cases h with
  | serving phase => exact .serving phase
  | waiting tasks phase covered => exact .waiting tasks phase covered
  | gathering pending phase covered =>
      refine .gathering pending phase ?_
      intro info hmem
      exact (covered info hmem).imp_right (done info.task)
  | exited phase finished =>
      refine .exited phase ?_
      intro info hmem
      exact done info.task (finished info hmem)
  | cancelled phase => exact .cancelled phase

section Runs

variable {σ τ : LifespanState} {a : LifespanAction} (inv : σ.Inv)
include inv

/-- One lifespan's `close_all` goes on. -/
theorem Inv.resume {i : Nat} (hi : i < σ.lifespans.length) {lifespan : Lifespan}
    {result : CloseStep}
    (exiting : Exiting σ
      { lifespan with
        phase := .exiting result.progress
        asked := lifespan.asked ++ result.cancels })
    (asked : ∀ info ∈ lifespan.atExit, info.task ∈ lifespan.asked ++ result.cancels) :
    (σ.resume i lifespan result).Inv := by
  have hset := phase?_set (τ := σ.resume i lifespan result) hi rfl
  constructor
  case current =>
    intro j hj
    obtain ⟨hreturned, hold⟩ := Option.ite_none_left_eq_some.mp hj
    obtain ⟨hlast, hnot⟩ := inv.current j hold
    refine ⟨by simpa [LifespanState.resume] using hlast, ?_⟩
    intro closed
    rw [hset]
    split
    · intro he
      rw [LifespanPhase.exiting.inj (Option.some.inj he)] at hreturned
      exact hreturned rfl
    · exact hnot closed
  case exiting =>
    intro other hmem
    rcases List.mem_or_eq_of_mem_set hmem with hold | rfl
    · exact (inv.exiting other hold).mono fun _ hdone => hdone
    · exact exiting.mono fun _ hdone => hdone
  case asked =>
    intro other hmem
    rcases List.mem_or_eq_of_mem_set hmem with hold | rfl
    · exact inv.asked other hold
    · exact asked

theorem Inv.enter (registry : τ.registry = some σ.lifespans.length)
    (lifespans : τ.lifespans = σ.lifespans ++ [({} : Lifespan)])
    (outcome : τ.outcome = σ.outcome) : τ.Inv := by
  have hdone : ∀ task, σ.isDone task = true → τ.isDone task = true := by
    intro task h
    rw [isDone, outcome]
    exact h
  constructor
  case current =>
    intro i hi
    obtain rfl := Option.some.inj (registry.symm.trans hi)
    refine ⟨by simp [lifespans], ?_⟩
    simp [phase?_enter lifespans]
  case exiting =>
    intro lifespan hmem
    rw [lifespans, List.mem_append, List.mem_singleton] at hmem
    rcases hmem with hold | rfl
    · exact (inv.exiting lifespan hold).mono hdone
    · exact .serving rfl
  case asked =>
    intro lifespan hmem
    rw [lifespans, List.mem_append, List.mem_singleton] at hmem
    rcases hmem with hold | rfl
    · exact inv.asked lifespan hold
    · simp

/-- A lifespan begins to exit: what is registered now is to be closed. -/
theorem Inv.exit {i : Nat} {lifespan : Lifespan} (found : σ.lifespans[i]? = some lifespan) :
    (σ.resume i { lifespan with atExit := (σ.registries i).connections.values }
      (σ.registries i).closeAll).Inv := by
  have hcancels := (σ.registries i).closeAll_spec.2
  have htasks : ∀ info ∈ (σ.registries i).connections.values,
      info.task ∈ (σ.registries i).closeAll.cancels := by
    intro info hmem
    rw [hcancels]
    exact List.mem_map_of_mem hmem
  have hlength : (σ.registries i).activeCount = (σ.registries i).connections.values.length := by
    simp [ConnectionRegistry.activeCount, Dict.len, Dict.values]
  apply inv.resume (List.getElem?_eq_some_iff.mp found).1
  · have hprogress := (σ.registries i).closeAll_progress
    split at hprogress
    · rename_i hnone
      have hnil := List.length_eq_zero_iff.mp (hlength.symm.trans hnone)
      refine .exited ?_ (by simp [hnil])
      simp [hprogress, hnil]
    · refine .waiting ((σ.registries i).connections.values.map ConnectionInfo.task) ?_ ?_
      · rw [hprogress, hlength]
      · intro info hmem
        exact List.mem_map_of_mem hmem
  · intro info hmem
    exact List.mem_append_right _ (htasks info hmem)

/-- The wait is over: what is not done is cancelled again and gathered. -/
theorem Inv.waitReturns {i : Nat} {lifespan : Lifespan} {count : Nat} {tasks : List Nat}
    (found : σ.lifespans[i]? = some lifespan)
    (phase : lifespan.phase = .exiting (.waiting count tasks)) :
    (σ.resume i lifespan ((σ.registries i).waitReturned count
      (tasks.dedup.filter fun task => !σ.isDone task))).Inv := by
  have hexiting := inv.exiting lifespan (List.mem_of_getElem? found)
  obtain ⟨hcount, hcovered⟩ : count = lifespan.atExit.length ∧
      ∀ info ∈ lifespan.atExit, info.task ∈ tasks := by
    cases hexiting with
    | waiting others hphase covered =>
        obtain ⟨rfl, rfl⟩ := CloseProgress.waiting.inj
          (LifespanPhase.exiting.inj (phase.symm.trans hphase))
        exact ⟨rfl, covered⟩
    | serving hphase => simp [phase] at hphase
    | gathering _ hphase _ => simp [phase] at hphase
    | exited hphase _ => simp [phase] at hphase
    | cancelled hphase => simp [phase] at hphase
  subst hcount
  have hrest : ∀ info ∈ lifespan.atExit,
      info.task ∈ (tasks.dedup.filter fun task => !σ.isDone task) ∨
        σ.isDone info.task = true := by
    intro info hmem
    cases hdone : σ.isDone info.task with
    | true => exact Or.inr rfl
    | false => exact Or.inl (by simp [hcovered info hmem, hdone])
  apply inv.resume (List.getElem?_eq_some_iff.mp found).1
  · rw [ConnectionRegistry.waitReturned]
    split
    · rename_i hempty
      refine .exited rfl ?_
      intro info hmem
      refine (hrest info hmem).resolve_left ?_
      rw [List.isEmpty_iff.mp hempty]
      exact List.not_mem_nil
    · exact .gathering _ rfl hrest
  · intro info hmem
    exact List.mem_append_left _ (inv.asked lifespan (List.mem_of_getElem? found) info hmem)

/-- `gather` has returned. -/
theorem Inv.gatherReturns {i : Nat} {lifespan : Lifespan} {count : Nat} {pending : List Nat}
    (found : σ.lifespans[i]? = some lifespan)
    (phase : lifespan.phase = .exiting (.gathering count pending))
    (done : ∀ task ∈ pending, σ.isDone task = true) :
    (σ.resume i lifespan ((σ.registries i).gatherReturned count)).Inv := by
  have hexiting := inv.exiting lifespan (List.mem_of_getElem? found)
  obtain ⟨hcount, hcovered⟩ : count = lifespan.atExit.length ∧
      ∀ info ∈ lifespan.atExit, info.task ∈ pending ∨ σ.isDone info.task = true := by
    cases hexiting with
    | gathering others hphase covered =>
        obtain ⟨rfl, rfl⟩ := CloseProgress.gathering.inj
          (LifespanPhase.exiting.inj (phase.symm.trans hphase))
        exact ⟨rfl, covered⟩
    | serving hphase => simp [phase] at hphase
    | waiting _ hphase _ => simp [phase] at hphase
    | exited hphase _ => simp [phase] at hphase
    | cancelled hphase => simp [phase] at hphase
  subst hcount
  apply inv.resume (List.getElem?_eq_some_iff.mp found).1
  · refine .exited rfl ?_
    intro info hmem
    exact (hcovered info hmem).elim (done info.task) id
  · intro info hmem
    exact List.mem_append_left _ (inv.asked lifespan (List.mem_of_getElem? found) info hmem)

/-- A cancelled lifespan leaves everything else as it was. -/
theorem Inv.cancel {i : Nat} {lifespan : Lifespan} (found : σ.lifespans[i]? = some lifespan) :
    Inv { σ with lifespans := σ.lifespans.set i { lifespan with phase := .cancelled } } := by
  have hi := (List.getElem?_eq_some_iff.mp found).1
  constructor
  case current =>
    intro j hj
    obtain ⟨hlast, hnot⟩ := inv.current j hj
    refine ⟨by simpa using hlast, ?_⟩
    intro closed
    rw [phase?_set hi rfl]
    split
    · simp
    · exact hnot closed
  case exiting =>
    intro other hmem
    rcases List.mem_or_eq_of_mem_set hmem with hold | rfl
    · exact (inv.exiting other hold).mono fun _ hdone => hdone
    · exact .cancelled rfl
  case asked =>
    intro other hmem
    rcases List.mem_or_eq_of_mem_set hmem with hold | rfl
    · exact inv.asked other hold
    · exact inv.asked lifespan (List.mem_of_getElem? found)

/-- Every action keeps the invariant. -/
theorem Inv.step (h : σ.step a = some τ) : τ.Inv := by
  cases effect_of_step h with
  | enter registry lifespans outcome => exact inv.enter registry lifespans outcome
  | handler _ registry lifespans done _ _ =>
      constructor
      case current =>
        simpa only [registry, phase?, lifespans] using inv.current
      case exiting =>
        intro lifespan hmem
        exact (inv.exiting lifespan (lifespans ▸ hmem)).mono done
      case asked =>
        simpa only [lifespans] using inv.asked
  | exit i lifespan found _ result => exact result ▸ inv.exit found
  | waitReturns i lifespan count tasks found phase result =>
      exact result ▸ inv.waitReturns found phase
  | gatherReturns i lifespan count pending found phase done result =>
      exact result ▸ inv.gatherReturns found phase done
  | cancel i lifespan progress found _ _ result => exact result ▸ inv.cancel found

end Runs

theorem inv_of_run {acts : List LifespanAction} {σ : LifespanState}
    (run : Run step start acts σ) : σ.Inv :=
  run.invariant (I := fun _ σ => σ.Inv) start_inv fun _ _ _ _ inv h => inv.step h

/-- However lifespans overlap and handlers come and go: when a lifespan has exited, its
`close_all` has cancelled the task of every connection that was registered when it began to
exit, all of them are done, and it returned their number. `get_registry` returns the registry
of the last lifespan entered or none, and never that of one that has exited. -/
theorem lifespans_drain {acts : List LifespanAction} {σ : LifespanState}
    (run : Run step start acts σ) :
    (∀ lifespan ∈ σ.lifespans, ∀ closed, lifespan.phase = .exiting (.returned closed) →
      closed = lifespan.atExit.length ∧
      ∀ info ∈ lifespan.atExit, σ.isDone info.task = true ∧ info.task ∈ lifespan.asked) ∧
    ∀ i, σ.getRegistry = .ok i → i + 1 = σ.lifespans.length ∧
      ∀ closed, σ.phase? i ≠ some (.exiting (.returned closed)) := by
  have inv := inv_of_run run
  constructor
  · intro lifespan hmem closed hphase
    cases inv.exiting lifespan hmem with
    | exited phase done =>
        refine ⟨?_, ?_⟩
        · exact CloseProgress.returned.inj
            (LifespanPhase.exiting.inj (hphase.symm.trans phase))
        · intro info hinfo
          exact ⟨done info hinfo, inv.asked lifespan hmem info hinfo⟩
    | serving phase => simp [hphase] at phase
    | waiting _ phase _ => simp [hphase] at phase
    | gathering _ phase _ => simp [hphase] at phase
    | cancelled phase => simp [hphase] at phase
  · intro i hi
    exact inv.current i ((getRegistry_eq_ok_iff σ i).mp hi)

theorem lifespans_drain_take_over :
    let σ := (exec step start takeOverActs).get (by decide)
    (∀ lifespan ∈ σ.lifespans, ∀ closed, lifespan.phase = .exiting (.returned closed) →
      closed = lifespan.atExit.length) ∧
      σ.lifespans.map Lifespan.phase = [.cancelled, .exiting (.returned 2)] := by
  have run := run_get (show (exec step start takeOverActs).isSome from by decide)
  refine ⟨?_, by decide⟩
  intro lifespan hmem closed hphase
  exact ((lifespans_drain run).1 lifespan hmem closed hphase).1

end LifespanState

end WebSocketPatterns.Shutdown
