import WebSocketPatterns.Transition.Run

/-!
# Components and measures

Where the state lists the components of a system, an action of one of them
replaces it and keeps what it has in common with itself before. A measure that
no step raises and every counted step lowers bounds the number of counted steps
of a run. Where moreover some counted step is possible in every state short of
the goal, the goal can be reached from every state, and no run that keeps taking
counted steps can miss it.
-/

namespace Transition

/-- What a component keeps in its step is unchanged in the list of all components. -/
theorem map_set_of_eq {C K : Type*} {key : C → K} {components : List C} {i : Nat} {c c' : C}
    (hi : components[i]? = some c) (hkey : key c' = key c) :
    (components.set i c').map key = components.map key := by
  obtain ⟨hlt, rfl⟩ := List.getElem?_eq_some_iff.mp hi
  calc (components.set i c').map key
      = (components.map key).set i (key components[i]) := by rw [List.map_set, hkey]
    _ = (components.set i components[i]).map key := List.map_set.symm
    _ = components.map key := by rw [List.set_getElem_self]

variable {S A : Type*} {step : S → A → Option S} {allowed : A → Prop} {I D : S → Prop}
  {μ : S → Nat}

/-- Counted steps use up the measure. -/
theorem Run.countP_add_le {counted : A → Bool}
    (hstep : ∀ s a t, allowed a → I s → step s a = some t →
      I t ∧ μ t ≤ μ s ∧ (counted a = true → μ t < μ s))
    {s t : S} {acts : List A} (run : Run step s acts t) (hs : I s)
    (hacts : ∀ a ∈ acts, allowed a) : I t ∧ acts.countP counted + μ t ≤ μ s := by
  induction run with
  | nil => exact ⟨hs, by simp⟩
  | @snoc acts u a t run h ih =>
      obtain ⟨hu, hbound⟩ := ih fun b hb => hacts b (List.mem_append_left _ hb)
      have hallowed := hacts a (List.mem_append_right _ (List.mem_singleton.mpr rfl))
      obtain ⟨ht, hle, hlt⟩ := hstep u a t hallowed hu h
      refine ⟨ht, ?_⟩
      rw [List.countP_append, List.countP_singleton]
      split
      · have hlower := hlt (by assumption)
        omega
      · omega

/-- Where a step that lowers the measure may be taken in every state short of the goal, the goal
can be reached by such steps. -/
theorem exists_schedule_to {permitted : S → A → Prop}
    (henabled : ∀ s, I s → ¬ D s → ∃ a t, permitted s a ∧ step s a = some t ∧ I t ∧ μ t < μ s)
    (s : S) (hs : I s) :
    ∃ acts t, EachStep step s (fun _ => permitted) acts ∧ Run step s acts t ∧ I t ∧ D t := by
  induction hμ : μ s using Nat.strongRecOn generalizing s with
  | ind n ih =>
      by_cases hD : D s
      · exact ⟨[], s, eachStep_nil _, Run.nil, hs, hD⟩
      · obtain ⟨a, u, hpermitted, hstep, hu, hlt⟩ := henabled s hs hD
        obtain ⟨acts, t, hacts, run, ht, hDt⟩ := ih (μ u) (hμ ▸ hlt) u hu rfl
        refine ⟨a :: acts, t, eachStep_cons_iff.mpr ⟨hpermitted, ?_⟩,
          Run.cons_iff.mpr ⟨u, hstep, run⟩, ht, hDt⟩
        intro v hv
        obtain rfl := Option.some.inj (hstep.symm.trans hv)
        exact hacts

/-- The same where the actions alone tell which steps may be taken. -/
theorem exists_run_to
    (henabled : ∀ s, I s → ¬ D s → ∃ a t, allowed a ∧ step s a = some t ∧ I t ∧ μ t < μ s)
    (s : S) (hs : I s) :
    ∃ acts t, (∀ a ∈ acts, allowed a) ∧ Run step s acts t ∧ I t ∧ D t := by
  obtain ⟨acts, t, hacts, run, ht, hD⟩ := exists_schedule_to henabled s hs
  exact ⟨acts, t, (eachStep_action_iff run).mp hacts, run, ht, hD⟩

end Transition
