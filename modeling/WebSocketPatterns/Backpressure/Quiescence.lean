import WebSocketPatterns.Backpressure.Conservation
import WebSocketPatterns.Backpressure.DrainReference
import WebSocketPatterns.Backpressure.DropAccounting
import WebSocketPatterns.Transition.Progress

/-!
# Coming to rest

Whatever has happened to a queue, its consumers alone can bring it to rest:
drains whose sends succeed empty it, and make room for the senders that wait in
`put`, which are woken only where there is room. No message is lost on the way,
and none comes in that was not waited with.
-/

namespace WebSocketPatterns.Backpressure

open Transition

variable {α : Type*}

namespace SendSystem

/-- A step of a drain whose sends succeed, or the wake-up of a waiting sender where the queue
has a free place. -/
def Consumes (σ : SendSystem α) : SendAction α → Prop
  | .wake _ => ∀ a ∈ σ.queue.asyncQueue, ¬ a.full
  | .drain _ => True
  | .sendReturned _ => True
  | _ => False

/-- No sender waits, no message is queued, no drain is in flight. -/
structure AtRest (σ : SendSystem α) : Prop where
  waiting : ∀ s, σ.waiting s = none
  content : σ.queue.content = []
  drains : σ.drains = []

/-- Nothing but the waiting messages has come in since the given state, and nothing got lost. -/
structure Continues (σ₀ σ : SendSystem α) : Prop where
  blocks : ∀ s m, σ.waiting s = some m → σ.queue.strategy = .blockSender
  known : ∀ s m, σ.waiting s = some m → s ∈ σ₀.offered.map Prod.fst
  evicted : σ.evicted = σ₀.evicted
  errors : σ.queue.stats.sendErrors = σ₀.queue.stats.sendErrors
  kept : ∀ s, σ.keptOf s = σ₀.keptOf s
  moved : ∃ woken, σ.entered = σ₀.entered ++ woken ∧
    σ.handed ++ σ.queue.content = σ₀.handed ++ σ₀.queue.content ++ woken.map Prod.snd

/-- A waiting sender puts its message; a queued one, or a drain, is sent off. -/
def workLeft (senders : List Nat) (σ : SendSystem α) : Nat :=
  3 * senders.countP (fun s => (σ.waiting s).isSome) + 2 * σ.queue.content.length +
    σ.drains.length

section Steps

variable {σ₀ σ : SendSystem α}

/-- A drain that goes on, after a send that was counted or at its start, moves messages from
the queue to `send_fn` and touches nothing else. -/
theorem Continues.advance (h : Continues σ₀ σ) (others : List (Drain α)) {q : SendQueue α}
    (same : q = { σ.queue with stats := q.stats })
    (errors : q.stats.sendErrors = σ.queue.stats.sendErrors) (remaining sent : Nat) :
    Continues σ₀ (σ.advance others (q.drainNext remaining sent)) := by
  obtain ⟨hwaiting, _, hentered⟩ := advance_senders σ others (q.drainNext remaining sent)
  obtain ⟨hcontent, hstrategy, _, _⟩ := Stepped.drained_content same remaining sent
  have hkept : ∀ s, (σ.advance others (q.drainNext remaining sent)).keptOf s = σ.keptOf s := by
    intro s
    rw [keptOf, keptOf, hwaiting, hentered]
  have hmoved : (σ.advance others (q.drainNext remaining sent)).handed ++
      (σ.advance others (q.drainNext remaining sent)).queue.content =
        σ.handed ++ σ.queue.content := by
    rw [advance_queue, ← hcontent]
    unfold SendSystem.advance
    split
    · rename_i hprogress
      simp [hprogress, DrainProgress.handed, handed]
    · rename_i hprogress
      simp [hprogress, DrainProgress.handed, handed, Departure.taken?]
  constructor
  case blocks =>
    rw [hwaiting, advance_queue, hstrategy]
    exact h.blocks
  case known =>
    rw [hwaiting]
    exact h.known
  case evicted => rw [advance_evicted, h.evicted]
  case errors => rw [advance_stats, errors, h.errors]
  case kept =>
    intro s
    rw [hkept, h.kept]
  case moved =>
    obtain ⟨woken, hentered₀, hmoved₀⟩ := h.moved
    exact ⟨woken, hentered.trans hentered₀, hmoved.trans hmoved₀⟩

/-- A drain that has run holds at most one message more, and the queue that many fewer. -/
theorem workLeft_advance (senders : List Nat) (others : List (Drain α)) {q : SendQueue α}
    (same : q = { σ.queue with stats := q.stats }) (remaining sent : Nat) :
    workLeft senders (σ.advance others (q.drainNext remaining sent)) +
        (q.drainNext remaining sent).2.handed.toList.length +
        σ.drains.length =
      workLeft senders σ + others.length := by
  obtain ⟨hwaiting, _, _⟩ := advance_senders σ others (q.drainNext remaining sent)
  obtain ⟨hcontent, _⟩ := Stepped.drained_content same remaining sent
  have hlength := congrArg List.length hcontent
  rw [List.length_append] at hlength
  rw [workLeft, workLeft, hwaiting, advance_queue]
  unfold SendSystem.advance
  split
  · rename_i hprogress
    simp only [hprogress, DrainProgress.handed, Option.toList_none, List.length_nil] at hlength ⊢
    omega
  · rename_i hprogress
    simp only [hprogress, DrainProgress.handed, Option.toList_some, List.length_singleton,
      List.length_append] at hlength ⊢
    omega

/-- An empty queue has a free place. -/
theorem not_full_of_empty (hempty : σ.queue.content = []) :
    ∀ a ∈ σ.queue.asyncQueue, ¬ a.full := by
  intro a ha hfull
  have hpos : 0 < a.maxsize := hfull.1
  have hle : a.maxsize ≤ a.items.length := hfull.2
  rw [← SendQueue.content_of_some ha, hempty] at hle
  simp at hle
  omega

/-- A waiting sender that is woken on an empty queue gets its message in. -/
theorem Continues.wake (h : Continues σ₀ σ) {s : Nat} {m : α} (waits : σ.waiting s = some m)
    (hempty : σ.queue.content = []) :
    (σ.settle s m (σ.queue.put m)).waiting = Function.update σ.waiting s none ∧
      (σ.settle s m (σ.queue.put m)).queue.content = [m] ∧
      Continues σ₀ (σ.settle s m (σ.queue.put m)) := by
  have hblock := h.blocks s m waits
  obtain ⟨a, ha⟩ := Option.ne_none_iff_exists'.mp (SendQueue.asyncQueue_ne_none hblock)
  obtain ⟨hreturned, hentered, _, _⟩ :=
    SendQueue.put_of_room ha (not_full_of_empty hempty a ha) m
  have frame := SendQueue.put_frame σ.queue m
  have heffect : (σ.queue.put m).evicted = none ∧ (σ.queue.put m).queue.content = [m] := by
    cases SendQueue.put_effect σ.queue m with
    | kept entered _ _ => simp [hentered] at entered
    | added _ evicted _ content => exact ⟨evicted, by rw [content, hempty]; rfl⟩
    | displaced _ _ _ dropOldest _ _ => simp [hblock] at dropOldest
  have hwaiting : (σ.settle s m (σ.queue.put m)).waiting = Function.update σ.waiting s none := by
    simp [settle, hreturned]
  have hstill : ∀ t n, Function.update σ.waiting s none t = some n → σ.waiting t = some n := by
    intro t n ht
    by_cases he : t = s
    · subst he
      simp at ht
    · simpa [he] using ht
  refine ⟨hwaiting, heffect.2, ?_⟩
  constructor
  case blocks =>
    intro t n ht
    rw [settle_queue, frame.strategy]
    exact hblock
  case known =>
    intro t n ht
    rw [hwaiting] at ht
    exact h.known t n (hstill t n ht)
  case evicted =>
    rw [settle_evicted, heffect.1, h.evicted]
    simp
  case errors =>
    rw [settle_queue, frame.sendErrors, h.errors]
  case kept =>
    intro t
    rw [settle_keptOf, ← h.kept t]
    by_cases he : t = s
    · subst he
      rw [if_pos rfl, SendQueue.put_retained (SendQueue.asyncQueue_ne_none hblock), keptOf, waits]
      rfl
    · rw [if_neg he]
  case moved =>
    obtain ⟨woken, hentered₀, hmoved₀⟩ := h.moved
    refine ⟨woken ++ [(s, m)], ?_, ?_⟩
    · simp [settle, hentered, hentered₀]
    · rw [settle_handed, settle_queue, heffect.2]
      rw [hempty, List.append_nil] at hmoved₀
      rw [hmoved₀, List.map_append]
      simp

/-- A sender that stops waiting is no longer counted. -/
theorem countP_update_lt {waiting : Nat → Option α} {senders : List Nat} {s : Nat} {m : α}
    (hs : s ∈ senders) (waits : waiting s = some m) :
    (senders.countP fun t => (Function.update waiting s none t).isSome) <
      senders.countP fun t => (waiting t).isSome := by
  have hmono : ∀ l : List Nat, (l.countP fun t => (Function.update waiting s none t).isSome) ≤
      l.countP fun t => (waiting t).isSome := by
    intro l
    apply List.countP_mono_left
    intro t _ ht
    by_cases he : t = s
    · simp [he] at ht
    · simpa [he] using ht
  obtain ⟨before, after, rfl⟩ := List.append_of_mem hs
  have hbefore := hmono before
  have hafter := hmono after
  simp only [List.countP_append, List.countP_cons, Function.update_self, waits,
    Option.isSome_none, Option.isSome_some, Bool.false_eq_true, if_false, if_true]
  omega

/-- The end of a send goes on with its drain, which has less left to do. -/
theorem Continues.exists_sendReturned (h : Continues σ₀ σ) (senders : List Nat)
    (hdrains : σ.drains ≠ []) :
    ∃ τ, σ.step (.sendReturned 0) = some τ ∧ Continues σ₀ τ ∧
      workLeft senders τ < workLeft senders σ := by
  obtain ⟨d, rest, hd⟩ := List.exists_cons_of_ne_nil hdrains
  let counted : SendQueue α :=
    { σ.queue with stats.messagesSent := σ.queue.stats.messagesSent + 1 }
  have hstep : σ.step (.sendReturned 0) =
      some (σ.advance rest (counted.drainNext d.remaining (d.sent + 1))) := by
    simp [SendSystem.step, hd, SendQueue.sendReturned, counted]
  refine ⟨_, hstep, h.advance rest (q := counted) rfl rfl d.remaining (d.sent + 1), ?_⟩
  have hwork := workLeft_advance (σ := σ) senders rest (q := counted) rfl d.remaining (d.sent + 1)
  rw [hd, List.length_cons] at hwork
  omega

/-- A drain that starts on a queue with messages hands one over. -/
theorem Continues.exists_drain (h : Continues σ₀ σ) (senders : List Nat)
    (hcontent : σ.queue.content ≠ []) :
    ∃ τ, σ.step (.drain 1) = some τ ∧ Continues σ₀ τ ∧
      workLeft senders τ < workLeft senders σ := by
  refine ⟨_, rfl, h.advance σ.drains (q := σ.queue) rfl rfl 1 0, ?_⟩
  have hwork := workLeft_advance (σ := σ) senders σ.drains (q := σ.queue) rfl 1 0
  have hhanded : (σ.queue.drainNext 1 0).2.handed.toList.length = 1 := by
    cases hp : σ.queue.pop with
    | none => exact absurd (SendQueue.content_of_pop_none hp) hcontent
    | some popped => simp [SendQueue.drainNext, hp, DrainProgress.handed]
  change workLeft senders (σ.advance σ.drains (σ.queue.drainNext 1 0)) < _
  omega

/-- Where nothing is queued, waking any waiting sender brings the system further. -/
theorem Continues.exists_wake (h : Continues σ₀ σ) (hcontent : σ.queue.content = []) {s : Nat}
    {m : α} (waits : σ.waiting s = some m) :
    ∃ τ, σ.step (.wake s) = some τ ∧ Continues σ₀ τ ∧
      workLeft (σ₀.offered.map Prod.fst) τ < workLeft (σ₀.offered.map Prod.fst) σ := by
  obtain ⟨hwaiting, hafter, hcontinues⟩ := h.wake waits hcontent
  refine ⟨σ.settle s m (σ.queue.put m), ?_, hcontinues, ?_⟩
  · simp [SendSystem.step, waits]
  · have hfewer := countP_update_lt (h.known s m waits) waits
    rw [workLeft, workLeft, hwaiting, hafter, hcontent]
    change 3 * _ + 2 * 1 + σ.drains.length < 3 * _ + 2 * 0 + σ.drains.length
    omega

end Steps

/-- A sender that waits has offered the message it waits with. -/
theorem waiting_offered {connectionId : String} {maxSize : Nat}
    {strategy : BackpressureStrategy} {acts : List (SendAction α)} {σ : SendSystem α}
    (run : Run step (start connectionId maxSize strategy) acts σ) {s : Nat} {m : α}
    (waits : σ.waiting s = some m) : s ∈ σ.offered.map Prod.fst := by
  have hkept := (keptOf_of_run run s).subset
  have hmem : m ∈ ofSender s σ.offered := by
    apply hkept
    simp [keptOf, waits]
  obtain ⟨⟨t, n⟩, hoffered, hof⟩ := List.mem_filterMap.mp hmem
  obtain ⟨rfl, _⟩ := Option.ite_none_right_eq_some.mp hof
  exact List.mem_map.mpr ⟨_, hoffered, rfl⟩

/-- Only BLOCK_SENDER lets a sender wait. -/
theorem blockSender_of_waiting {connectionId : String} {maxSize : Nat}
    {strategy : BackpressureStrategy} {acts : List (SendAction α)} {σ : SendSystem α}
    (run : Run step (start connectionId maxSize strategy) acts σ) {s : Nat} {m : α}
    (waits : σ.waiting s = some m) : σ.queue.strategy = .blockSender := by
  by_cases hold : strategy = .dropOldest
  · subst hold
    simp [(dropOldest_of_run run).1 s] at waits
  · exact (counted_of_run run hold).waiting s m waits

/-- Where someone waits, something is queued or a drain is in flight, a step brings the system
further, so that it can be brought to rest. -/
theorem exists_rest_of_run {connectionId : String} {maxSize : Nat}
    {strategy : BackpressureStrategy} {acts : List (SendAction α)} {σ : SendSystem α}
    (run : Run step (start connectionId maxSize strategy) acts σ) :
    ∃ more τ, EachStep step σ (fun _ => Consumes) more ∧ Run step σ more τ ∧ Continues σ τ ∧
      τ.AtRest := by
  have hstart : Continues σ σ :=
    { blocks := fun s m waits => blockSender_of_waiting run waits
      known := fun s m waits => waiting_offered run waits
      evicted := rfl
      errors := rfl
      kept := fun _ => rfl
      moved := ⟨[], by simp⟩ }
  have henabled : ∀ ω : SendSystem α, Continues σ ω → ¬ ω.AtRest →
      ∃ a τ, ω.Consumes a ∧ ω.step a = some τ ∧ Continues σ τ ∧
        workLeft (σ.offered.map Prod.fst) τ < workLeft (σ.offered.map Prod.fst) ω := by
    intro ω h hrest
    by_cases hdrains : ω.drains = []
    · by_cases hcontent : ω.queue.content = []
      · obtain ⟨s, m, waits⟩ : ∃ s m, ω.waiting s = some m := by
          by_contra hnone
          apply hrest
          refine ⟨?_, hcontent, hdrains⟩
          intro s
          rw [Option.eq_none_iff_forall_ne_some]
          intro m waits
          exact hnone ⟨s, m, waits⟩
        obtain ⟨τ, hstep, hτ⟩ := h.exists_wake hcontent waits
        exact ⟨.wake s, τ, not_full_of_empty hcontent, hstep, hτ⟩
      · obtain ⟨τ, hstep, hτ⟩ := h.exists_drain (σ.offered.map Prod.fst) hcontent
        exact ⟨.drain 1, τ, trivial, hstep, hτ⟩
    · obtain ⟨τ, hstep, hτ⟩ := h.exists_sendReturned (σ.offered.map Prod.fst) hdrains
      exact ⟨.sendReturned 0, τ, trivial, hstep, hτ⟩
  exact exists_schedule_to henabled σ hstart

/-- What was queued has been handed over in its order, and then each waiting message. -/
theorem Continues.handed_at_rest {σ τ : SendSystem α} (h : Continues σ τ) (hrest : τ.AtRest) :
    ∃ woken, τ.handed = σ.handed ++ σ.queue.content ++ woken.map Prod.snd ∧
      ∀ s, ofSender s woken = (σ.waiting s).toList := by
  obtain ⟨woken, hentered, hmoved⟩ := h.moved
  refine ⟨woken, ?_, ?_⟩
  · rw [hrest.content, List.append_nil] at hmoved
    exact hmoved
  · intro s
    have hkept := h.kept s
    rw [keptOf, keptOf, hrest.waiting s, hentered, ofSender_append, Option.toList_none,
      List.append_nil, List.append_cancel_left_eq] at hkept
    exact hkept

/-- From every reachable state, drains whose sends succeed, and wake-ups where the queue has a
free place, alone bring the queue to rest: nobody waits, nothing is queued and no drain is in
flight; what was queued has been handed over in its order, and after it each waiting sender's
message, once, and nothing else; no further message was evicted, and no further send failed. -/
theorem comes_to_rest {connectionId : String} {maxSize : Nat}
    {strategy : BackpressureStrategy} {acts : List (SendAction α)} {σ : SendSystem α}
    (run : Run step (start connectionId maxSize strategy) acts σ) :
    ∃ more τ, EachStep step σ (fun _ => Consumes) more ∧ Run step σ more τ ∧ τ.AtRest ∧
      (∃ woken, τ.handed = σ.handed ++ σ.queue.content ++ woken.map Prod.snd ∧
        ∀ s, ofSender s woken = (σ.waiting s).toList) ∧
      τ.evicted = σ.evicted ∧ τ.queue.stats.sendErrors = σ.queue.stats.sendErrors ∧
      τ.queue.stats.messagesSent + τ.queue.stats.sendErrors = τ.handed.length := by
  obtain ⟨more, τ, hmore, hrun, hτ, hrest⟩ := exists_rest_of_run run
  refine ⟨more, τ, hmore, hrun, hrest, hτ.handed_at_rest hrest, hτ.evicted, hτ.errors, ?_⟩
  have hattempts := attempts_of_run (run.append hrun)
  rw [attempts, hrest.drains] at hattempts
  exact hattempts

/-- Three senders share a queue of one message; two of them wait. -/
def waitingActs : List (SendAction Nat) := [.enqueue 0 7, .enqueue 1 8, .enqueue 2 9]

theorem comes_to_rest_waiting :
    let σ := (exec step (start "c" 1 .blockSender) waitingActs).get (by decide)
    ∃ more τ, EachStep step σ (fun _ => Consumes) more ∧ Run step σ more τ ∧ τ.AtRest ∧
      ∃ woken, τ.handed = [7] ++ woken.map Prod.snd ∧ ofSender 1 woken = [8] ∧
        ofSender 2 woken = [9] := by
  intro σ
  have run : Run step (start "c" 1 .blockSender) waitingActs σ := run_get (by decide)
  obtain ⟨more, τ, hmore, hrun, hrest, ⟨woken, hhanded, hwoken⟩, _⟩ := comes_to_rest run
  refine ⟨more, τ, hmore, hrun, hrest, woken, ?_, ?_, ?_⟩
  · exact hhanded.trans (congrArg (· ++ woken.map Prod.snd) (by decide))
  · exact (hwoken 1).trans (by decide)
  · exact (hwoken 2).trans (by decide)

end SendSystem

end WebSocketPatterns.Backpressure
