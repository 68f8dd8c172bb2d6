import Mathlib.Data.List.Induction
import Mathlib.Logic.Relation

/-!
# Finite runs of a deterministic labelled step

A step function refuses an action (`none`) or names the one next state. A run
lists the actions in the order they were taken. Properties of a run are stated
over all its prefixes, so that one induction serves invariants, conditions on
single steps, and the equivalence of the two.
-/

namespace Transition

variable {S A : Type*} {step : S → A → Option S} {start : S}

/-- Every listed action was enabled in its turn. -/
inductive Run (step : S → A → Option S) (start : S) : List A → S → Prop
  | nil : Run step start [] start
  | snoc {acts s a t} (run : Run step start acts s) (h : step s a = some t) :
      Run step start (acts ++ [a]) t

/-- Take the listed actions one after the other. -/
def exec (step : S → A → Option S) (s : S) : List A → Option S
  | [] => some s
  | a :: acts => (step s a).bind fun t => exec step t acts

/-- The visited states, each with the action taken there. -/
def trace (step : S → A → Option S) (s : S) : List A → List (S × A)
  | [] => []
  | a :: acts => (s, a) :: (step s a).elim [] fun t => trace step t acts

/-- The visited states, the last one included. -/
def visited (step : S → A → Option S) (s : S) : List A → List S
  | [] => [s]
  | a :: acts => s :: (step s a).elim [] fun t => visited step t acts

theorem exec_append (s : S) (xs ys : List A) :
    exec step s (xs ++ ys) = (exec step s xs).bind fun t => exec step t ys := by
  induction xs generalizing s with
  | nil => rfl
  | cons a xs ih =>
      simp only [List.cons_append, exec, Option.bind_assoc]
      exact congrArg _ (funext fun t => ih t)

theorem Run.exec_eq {acts : List A} {t : S} (run : Run step start acts t) :
    exec step start acts = some t := by
  induction run with
  | nil => rfl
  | snoc _ h ih => simp [exec_append, ih, exec, h]

/-- Executing the listed actions is the same as having a run of them. -/
theorem run_iff_exec {acts : List A} {t : S} :
    Run step start acts t ↔ exec step start acts = some t := by
  refine ⟨Run.exec_eq, ?_⟩
  induction acts using List.reverseRecOn generalizing t with
  | nil =>
      intro h
      obtain rfl : start = t := Option.some.inj h
      exact Run.nil
  | append_singleton acts a ih =>
      intro h
      rw [exec_append, Option.bind_eq_some_iff] at h
      obtain ⟨s, hs, ha⟩ := h
      obtain ⟨u, hu, rfl⟩ : ∃ u, step s a = some u ∧ u = t := by
        simpa [exec, Option.bind_eq_some_iff] using ha
      exact Run.snoc (ih hs) hu

/-- The run of listed actions that can all be taken. -/
theorem run_get {acts : List A} (h : (exec step start acts).isSome) :
    Run step start acts ((exec step start acts).get h) :=
  run_iff_exec.mpr (Option.some_get h).symm

theorem Run.deterministic {acts : List A} {s t : S} (hs : Run step start acts s)
    (ht : Run step start acts t) : s = t :=
  Option.some.inj (hs.exec_eq.symm.trans ht.exec_eq)

theorem Run.append {xs ys : List A} {s t : S} (hx : Run step start xs s)
    (hy : Run step s ys t) : Run step start (xs ++ ys) t := by
  rw [run_iff_exec, exec_append, hx.exec_eq]
  exact hy.exec_eq

/-- A run of at least one action: the first step, then a run from the state it leads to. -/
theorem Run.cons_iff {a : A} {acts : List A} {s t : S} :
    Run step s (a :: acts) t ↔ ∃ u, step s a = some u ∧ Run step u acts t := by
  simp only [run_iff_exec, exec, Option.bind_eq_some_iff]

/-- What holds at the start and survives every step holds after every run. -/
theorem Run.invariant {I : List A → S → Prop} (h₀ : I [] start)
    (hstep : ∀ acts s a t, I acts s → step s a = some t → I (acts ++ [a]) t)
    {acts : List A} {t : S} (run : Run step start acts t) : I acts t := by
  induction run with
  | nil => exact h₀
  | snoc _ h ih => exact hstep _ _ _ _ ih h

/-- Forward simulation: every step is answered by abstract steps that keep the relation. -/
theorem Run.simulation {B : Type*} {R : S → B → Prop} {abs : B → B → Prop} {b : B}
    (h₀ : R start b)
    (hstep : ∀ s a t c, R s c → step s a = some t →
      ∃ d, Relation.ReflTransGen abs c d ∧ R t d)
    {acts : List A} {t : S} (run : Run step start acts t) :
    ∃ d, Relation.ReflTransGen abs b d ∧ R t d := by
  induction run with
  | nil => exact ⟨b, .refl, h₀⟩
  | snoc _ h ih =>
      obtain ⟨c, hbc, hc⟩ := ih
      obtain ⟨d, hcd, hd⟩ := hstep _ _ _ c hc h
      exact ⟨d, hbc.trans hcd, hd⟩

/-- If every step is a step of another system, between the states and by the action that the
maps name, then every run is a run of that system. -/
theorem Run.map {T B : Type*} {step' : T → B → Option T} {f : S → T} {g : A → B}
    (hstep : ∀ s a t, step s a = some t → step' (f s) (g a) = some (f t))
    {acts : List A} {t : S} (run : Run step start acts t) :
    Run step' (f start) (acts.map g) (f t) := by
  induction run with
  | nil => exact Run.nil
  | snoc _ h ih =>
      rw [List.map_append]
      exact ih.snoc (hstep _ _ _ h)

/-- The trace of a longer run adds the state its last action was taken in. -/
theorem Run.trace_snoc {acts : List A} {s : S} (run : Run step start acts s) (a : A) :
    trace step start (acts ++ [a]) = trace step start acts ++ [(s, a)] := by
  have h := run.exec_eq
  clear run
  induction acts generalizing start with
  | nil =>
      obtain rfl : start = s := Option.some.inj h
      cases hs : step start a <;> simp [trace, hs]
  | cons b acts ih =>
      obtain ⟨u, hu, hrest⟩ := Option.bind_eq_some_iff.mp h
      simp only [List.cons_append, trace, hu, Option.elim_some, ih hrest]

/-- A longer run visits the state its last action leads to. -/
theorem Run.visited_snoc {acts : List A} {s t : S} {a : A} (run : Run step start acts s)
    (h : step s a = some t) :
    visited step start (acts ++ [a]) = visited step start acts ++ [t] := by
  have hexec := run.exec_eq
  clear run
  induction acts generalizing start with
  | nil =>
      obtain rfl : start = s := Option.some.inj hexec
      simp [visited, h]
  | cons b acts ih =>
      obtain ⟨u, hu, hrest⟩ := Option.bind_eq_some_iff.mp hexec
      simp only [List.cons_append, visited, hu, Option.elim_some, ih hrest]

/-- The states actions are taken in are visited. -/
theorem mem_visited_of_mem_trace {visit : S × A} {acts : List A}
    (h : visit ∈ trace step start acts) : visit.1 ∈ visited step start acts := by
  induction acts generalizing start with
  | nil => simp [trace] at h
  | cons a acts ih =>
      rw [trace, List.mem_cons] at h
      rw [visited, List.mem_cons]
      rcases h with rfl | h
      · exact Or.inl rfl
      · cases hs : step start a with
        | none => simp [hs] at h
        | some t =>
            rw [hs, Option.elim_some] at h
            exact Or.inr (ih h)

/-- A view of the state that each action leaves alone or changes by one local operation is
the result of the local operations of the run. -/
theorem Run.view_eq {V B : Type*} {view : S → V} {op : S → A → Option B} {apply : V → B → V}
    (hstep : ∀ acts s a t, Run step start acts s → step s a = some t →
      view t = (op s a).elim (view s) (apply (view s)))
    {acts : List A} {t : S} (run : Run step start acts t) :
    view t = ((trace step start acts).filterMap fun visit => op visit.1 visit.2).foldl apply
      (view start) := by
  induction run with
  | nil => rfl
  | @snoc acts s a t run h ih =>
      rw [run.trace_snoc, List.filterMap_append, List.foldl_append, ← ih, hstep _ _ _ _ run h]
      cases ho : op s a <;> simp [ho]

section Conditions

variable (step start)

/-- The predicate holds in every state the run visits, the last one included. -/
def Throughout (P : List A → S → Prop) (acts : List A) : Prop :=
  ∀ pre post s, acts = pre ++ post → Run step start pre s → P pre s

/-- The predicate holds of every step of the run, at the state the step is taken in. -/
def EachStep (C : List A → S → A → Prop) (acts : List A) : Prop :=
  ∀ pre a post s, acts = pre ++ a :: post → Run step start pre s → C pre s a

variable {step start}

@[simp] theorem eachStep_nil (C : List A → S → A → Prop) : EachStep step start C [] := by
  intro pre a post s h
  simp at h

@[simp] theorem throughout_nil (P : List A → S → Prop) :
    Throughout step start P [] ↔ P [] start := by
  constructor
  · intro h
    exact h [] [] start rfl Run.nil
  · intro h pre post s he run
    obtain ⟨rfl, rfl⟩ := List.append_eq_nil_iff.mp he.symm
    obtain rfl := run.deterministic Run.nil
    exact h

theorem Throughout.last {P : List A → S → Prop} {acts : List A} {t : S}
    (h : Throughout step start P acts) (run : Run step start acts t) : P acts t :=
  h acts [] t (List.append_nil acts).symm run

private theorem snoc_split {acts pre post : List A} {a b : A}
    (h : acts ++ [a] = pre ++ b :: post) :
    (∃ mid, acts = pre ++ b :: mid) ∨ (pre = acts ∧ b = a) := by
  rcases List.eq_nil_or_concat post with rfl | ⟨mid, c, rfl⟩
  · obtain ⟨hp, hb⟩ := List.append_inj' h rfl
    exact Or.inr ⟨hp.symm, (List.singleton_inj.mp hb).symm⟩
  · have h' : acts ++ [a] = (pre ++ b :: mid) ++ [c] := by simpa using h
    exact Or.inl ⟨mid, (List.append_inj' h' rfl).1⟩

theorem Throughout.snoc_iff {P : List A → S → Prop} {acts : List A} {a : A} {t : S}
    (run : Run step start (acts ++ [a]) t) :
    Throughout step start P (acts ++ [a]) ↔
      Throughout step start P acts ∧ P (acts ++ [a]) t := by
  constructor
  · intro h
    refine ⟨fun pre post s he hrun => ?_, h.last run⟩
    exact h pre (post ++ [a]) s (by simp [he]) hrun
  · rintro ⟨hall, hlast⟩ pre post s he hrun
    cases post with
    | nil =>
        obtain rfl : pre = acts ++ [a] := by simpa using he.symm
        exact hrun.deterministic run ▸ hlast
    | cons b post =>
        rcases snoc_split he with ⟨mid, hm⟩ | ⟨rfl, rfl⟩
        · exact hall pre (b :: mid) s hm hrun
        · exact hall pre [] s (List.append_nil pre).symm hrun

theorem EachStep.snoc_iff {C : List A → S → A → Prop} {acts : List A} {a : A} {s : S}
    (run : Run step start acts s) :
    EachStep step start C (acts ++ [a]) ↔ EachStep step start C acts ∧ C acts s a := by
  constructor
  · intro h
    refine ⟨fun pre b post u he hrun => ?_, h acts a [] s rfl run⟩
    exact h pre b (post ++ [a]) u (by simp [he]) hrun
  · rintro ⟨hall, hlast⟩ pre b post u he hrun
    rcases snoc_split he with ⟨mid, hm⟩ | ⟨rfl, rfl⟩
    · exact hall pre b mid u hm hrun
    · exact hrun.deterministic run ▸ hlast

/-- The condition on the first step, then on the rest of the run. -/
theorem eachStep_cons_iff {C : List A → S → A → Prop} {acts : List A} {a : A} {s : S} :
    EachStep step s C (a :: acts) ↔
      C [] s a ∧ ∀ t, step s a = some t → EachStep step t (fun pre => C (a :: pre)) acts := by
  constructor
  · intro h
    refine ⟨h [] a acts s rfl Run.nil, ?_⟩
    intro t ht pre b post u he run
    exact h (a :: pre) b post u (by simp [he]) (Run.cons_iff.mpr ⟨t, ht, run⟩)
  · rintro ⟨hfirst, hrest⟩ pre b post u he run
    cases pre with
    | nil =>
        obtain ⟨rfl, rfl⟩ := List.cons.inj he
        obtain rfl := run.deterministic Run.nil
        exact hfirst
    | cons c pre =>
        obtain ⟨rfl, rfl⟩ := List.cons.inj he
        obtain ⟨t, ht, hu⟩ := Run.cons_iff.mp run
        exact hrest t ht pre b post u rfl hu

/-- Check a condition along the execution of the listed actions. -/
def checkSteps (step : S → A → Option S) (C : List A → S → A → Bool) (s : S) : List A → Bool
  | [] => true
  | a :: acts =>
      C [] s a && (step s a).elim true fun t => checkSteps step (fun pre => C (a :: pre)) t acts

theorem checkSteps_iff (C : List A → S → A → Bool) (s : S) (acts : List A) :
    checkSteps step C s acts = true ↔ EachStep step s (fun pre s a => C pre s a = true) acts := by
  induction acts generalizing C s with
  | nil => simp [checkSteps]
  | cons a acts ih =>
      rw [eachStep_cons_iff, checkSteps, Bool.and_eq_true]
      cases hs : step s a with
      | none => simp
      | some t => simp [ih]

instance {C : List A → S → A → Prop} [∀ pre s a, Decidable (C pre s a)] (s : S)
    (acts : List A) : Decidable (EachStep step s C acts) :=
  decidable_of_iff (checkSteps step (fun pre s a => decide (C pre s a)) s acts = true) <| by
    simp only [checkSteps_iff, decide_eq_true_eq]

/-- A condition on the actions alone holds of every step when it holds of every action. -/
theorem eachStep_action_iff {P : A → Prop} {acts : List A} {t : S}
    (run : Run step start acts t) :
    EachStep step start (fun _ _ a => P a) acts ↔ ∀ a ∈ acts, P a := by
  induction run with
  | nil => simp
  | snoc run _ ih =>
      rw [EachStep.snoc_iff run, ih, List.forall_mem_append, List.forall_mem_singleton]

/-- A condition on the steps of a system that simulates this one, step for step, is a condition
on its own steps. -/
theorem EachStep.of_map {T B : Type*} {step' : T → B → Option T} {f : S → T} {g : A → B}
    (hstep : ∀ s a t, step s a = some t → step' (f s) (g a) = some (f t))
    {C : List B → T → B → Prop} {acts : List A}
    (h : EachStep step' (f start) C (acts.map g)) :
    EachStep step start (fun pre s a => C (pre.map g) (f s) (g a)) acts := by
  intro pre a post s he run
  apply h (pre.map g) (g a) (post.map g) (f s) ?_ (run.map hstep)
  rw [he, List.map_append, List.map_cons]

/-- Two conditions that agree on every enabled step of a reachable state agree on a run. -/
theorem eachStep_congr {C D : List A → S → A → Prop}
    (hstep : ∀ acts s a t, Run step start acts s → step s a = some t → (C acts s a ↔ D acts s a))
    {acts : List A} {t : S} (run : Run step start acts t) :
    EachStep step start C acts ↔ EachStep step start D acts := by
  induction run with
  | nil => simp
  | snoc run h ih =>
      rw [EachStep.snoc_iff run, EachStep.snoc_iff run, ih, hstep _ _ _ _ run h]

/-- If from a good reachable state a step leads to a good state exactly when it meets the
condition, then a run stays good exactly when all its steps meet the condition. -/
theorem throughout_iff_eachStep {P : List A → S → Prop} {C : List A → S → A → Prop}
    (hP : P [] start)
    (hstep : ∀ acts s a t, Run step start acts s → P acts s → step s a = some t →
      (P (acts ++ [a]) t ↔ C acts s a))
    {acts : List A} {t : S} (run : Run step start acts t) :
    Throughout step start P acts ↔ EachStep step start C acts := by
  induction run with
  | nil => simp [hP]
  | @snoc acts s a t run h ih =>
      rw [Throughout.snoc_iff (run.snoc h), EachStep.snoc_iff run, ih]
      constructor
      · rintro ⟨hC, hlast⟩
        have hPs : P acts s := (ih.mpr hC).last run
        exact ⟨hC, (hstep acts s a t run hPs h).mp hlast⟩
      · rintro ⟨hC, hlast⟩
        have hPs : P acts s := (ih.mpr hC).last run
        exact ⟨hC, (hstep acts s a t run hPs h).mpr hlast⟩

end Conditions

end Transition
